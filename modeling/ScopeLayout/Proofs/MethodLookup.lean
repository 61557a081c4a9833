import ScopeLayout.Proofs.DispatchTable

/-!
# `ScopeLayout.Proofs.MethodLookup`: the definition that a look-up finds

The methods of a class are what the run has asked for. A definition is an entry of
the log: a class was asked to define a method, or to bind it to its code, and has
answered with a slot. `definitions` picks the definitions of one method in one
class out of a log, and `lastLabel?` is the code that the last one of them gave
that gave any. A log does not tell when a subclass was made, so a definition counts
for the subclasses whether it came before them or after.

`Recalls` relates a world to its log: a class defines a method itself exactly if the
log has a definition of it, and its code is the last that was given. One more
request is one more entry (`Recalls.serve`). A look-up goes along the lineage to the
first class with a definition (`Recalls.selects`), and what it finds stands at the
slot of the name in the hierarchy.

`lookup_finds_nearest_definition` puts this together, and says what one more definition changes.
-/

set_option autoImplicit false

namespace ScopeLayout

namespace World

/-! ### Definitions in a log -/

/-- What an entry of a log says about a method of a class. It says nothing, or it defines the
method, with code or without. A request that was not answered with a slot defines nothing. -/
def definition? (c : ClassId) (name : String) : Request × Answer → Option (Option String)
  | (.addMethod d method, .slot _) => if d = c ∧ method = name then some none else none
  | (.bindMethod d method label, .slot _) =>
    if d = c ∧ method = name then some (some label) else none
  | _ => none

/-- The definitions of a method in a class, oldest first, each with the code that it gives. -/
def definitions (log : List (Request × Answer)) (c : ClassId) (name : String) :
    List (Option String) :=
  log.filterMap (definition? c name)

/-- The code that the definitions leave: the last that one of them gives. -/
def lastLabel? (definitions : List (Option String)) : Option String :=
  (definitions.filterMap id).getLast?

/-- A definition with code decides, and one without leaves the code as it is. -/
theorem lastLabel?_concat (definitions : List (Option String)) (label? : Option String) :
    lastLabel? (definitions ++ [label?]) = label?.or (lastLabel? definitions) := by
  cases label? with
  | none => simp [lastLabel?]
  | some label => simp [lastLabel?]

/-- One more entry adds its own definition, if it is one. -/
theorem definitions_concat (log : List (Request × Answer)) (entry : Request × Answer)
    (c : ClassId) (name : String) : definitions (log ++ [entry]) c name
      = definitions log c name ++ (definition? c name entry).toList := by
  rw [definitions, List.filterMap_append, List.filterMap_cons, List.filterMap_nil]
  cases definition? c name entry <;> rfl

/-- A request that refers to nothing defines nothing. -/
theorem definition?_dangling (c : ClassId) (name : String) (request : Request) :
    definition? c name (request, .dangling) = none := by
  cases request <;> rfl

/-! ### What a class defines itself -/

/-- The method that a class defines itself under a name. -/
def ownMethod? (w : World) (c : ClassId) (name : String) : Option Method :=
  (w.ownMethods c).find? name

/-- The own methods of a class are those of its body. -/
theorem ownMethod?_of_found {w : World} {c : ClassId} {body : ClassBody}
    (found : w.classAt? c = some body) (name : String) :
    w.ownMethod? c name = body.methods.find? name := by
  rw [ownMethod?, ownMethods, found]
  rfl

/-- A class that does not exist has no methods. -/
theorem ownMethod?_of_absent {w : World} {c : ClassId} (absent : w.classAt? c = none)
    (name : String) : w.ownMethod? c name = none := by
  rw [ownMethod?, ownMethods, absent]
  rfl

/-- Only the body of a class matters to its own methods. -/
theorem ownMethod?_congr {w w' : World} {c : ClassId} (h : w'.classAt? c = w.classAt? c)
    (name : String) : w'.ownMethod? c name = w.ownMethod? c name := by
  rw [ownMethod?, ownMethods, h]
  rfl

/-- A class has its methods also after a change to something else. -/
theorem ownMethod?_changeClass {w : World} {changed : ClassId} {change : ClassBody → ClassBody}
    (h : ∀ body, (change body).methods = body.methods) (c : ClassId) (name : String) :
    (w.changeClass changed change).ownMethod? c name = w.ownMethod? c name := by
  have hlook := classAt?_changeClass w changed c change
  cases found : w.classAt? c with
  | none =>
    have habsent : (w.changeClass changed change).classAt? c = none := by
      rw [hlook, found]
      split <;> rfl
    rw [ownMethod?_of_absent habsent, ownMethod?_of_absent found]
  | some body =>
    by_cases hc : c = changed
    · rw [if_pos hc, found] at hlook
      rw [ownMethod?_of_found hlook, ownMethod?_of_found found, h]
    · rw [if_neg hc] at hlook
      exact ownMethod?_congr hlook name

/-- Neither a class that is not there yet nor a new root defines a method. -/
theorem ownMethod?_withRoot (w : World) (made : String) (g : GlobalsId) (settings : Settings)
    (c : ClassId) (name : String) :
    (w.withRoot made g settings).ownMethod? c name = w.ownMethod? c name := by
  have hlook := w.classAt?_withRoot made g settings c
  by_cases hlast : c.index = w.classes.size
  · have habsent : w.classAt? c = none :=
      Store.at?_eq_none_iff.mpr (Nat.le_of_eq hlast.symm)
    rw [if_pos hlast] at hlook
    rw [ownMethod?_of_found hlook, ownMethod?_of_absent habsent]
    rfl
  · rw [if_neg hlast] at hlook
    exact ownMethod?_congr hlook name

/-- A new child defines no method itself, and its parent has its methods as before. -/
theorem ownMethod?_withChild (w : World) (made : String) (parent : ClassId) (body : ClassBody)
    (c : ClassId) (name : String) :
    (w.withChild made parent body).ownMethod? c name = w.ownMethod? c name := by
  have hlook := w.classAt?_withChild made parent body c
  by_cases hlast : c.index = w.classes.size
  · have habsent : w.classAt? c = none :=
      Store.at?_eq_none_iff.mpr (Nat.le_of_eq hlast.symm)
    rw [if_pos hlast] at hlook
    rw [ownMethod?_of_found hlook, ownMethod?_of_absent habsent]
    rfl
  · rw [if_neg hlast, ← classAt?_changeClass] at hlook
    rw [ownMethod?_congr hlook, ownMethod?_changeClass]
    intro body
    rfl

/-- A method that is defined already stays as it is, and so do all others. That the name gets a slot
before is nothing to the methods. -/
theorem ownMethod?_define {w : World} {c : ClassId} {body : ClassBody}
    (found : w.classAt? c = some body) (n : NumberingId) (method : String) (slot : UInt64)
    (d : ClassId) (name : String) :
    ((w.changeNumbering n (·.allocate method)).changeClass c (·.define method slot)).ownMethod? d
      name = if c = d ∧ method = name
        then (w.ownMethod? d name).or (some { name := method, slot })
        else w.ownMethod? d name := by
  have hlook := classAt?_changeClass (w.changeNumbering n (·.allocate method)) c d
    (·.define method slot)
  have hsame : (w.changeNumbering n (·.allocate method)).classAt? d = w.classAt? d := rfl
  rw [hsame] at hlook
  by_cases hd : d = c
  · subst hd
    rw [if_pos rfl, found] at hlook
    rw [ownMethod?_of_found hlook, ownMethod?_of_found found]
    show (body.methods.add method { name := method, slot }).find? name = _
    rw [Registry.find?_add]
    by_cases hname : name = method
    · simp [hname]
    · simp [hname, Ne.symm hname]
  · rw [if_neg hd] at hlook
    rw [ownMethod?_congr hlook, if_neg]
    rintro ⟨rfl, -⟩
    exact hd rfl

/-- Giving the code of a method leaves all others alone. -/
theorem ownMethod?_bind (w : World) (c : ClassId) (method label : String) (d : ClassId)
    (name : String) : (w.changeClass c (·.bind method label)).ownMethod? d name =
      if c = d ∧ method = name
      then (w.ownMethod? d name).map fun m => { m with label? := some label }
      else w.ownMethod? d name := by
  have hlook := classAt?_changeClass w c d (·.bind method label)
  by_cases hd : d = c
  · subst hd
    rw [if_pos rfl] at hlook
    cases found : w.classAt? d with
    | none =>
      rw [found] at hlook
      rw [ownMethod?_of_absent hlook, ownMethod?_of_absent found]
      simp
    | some body =>
      rw [found] at hlook
      rw [ownMethod?_of_found hlook, ownMethod?_of_found found]
      show (body.methods.update method fun m => { m with label? := some label }).find? name = _
      rw [Registry.find?_update]
      by_cases hname : name = method
      · simp [hname]
      · simp [hname, Ne.symm hname]
  · rw [if_neg hd] at hlook
    rw [ownMethod?_congr hlook, if_neg]
    rintro ⟨rfl, -⟩
    exact hd rfl

/-! ### What a request does to the methods -/

/-- A class that exists can be asked for a method, because its numbering exists. -/
theorem Grounded.absent_of_dangles {w : World} (grounded : w.Grounded) {c : ClassId}
    {method : String} (dangles : w.Dangles (.addMethod c method)) : w.classAt? c = none := by
  cases dangles with
  | addMethod absent =>
    cases found : w.classAt? c with
    | none => rfl
    | some body =>
      obtain ⟨_, numbering, -, numbered, -⟩ := grounded.home found
      exact nomatch numbered.symm.trans (absent body found)

namespace Outcome

variable {w : World} {request : Request} {result : World × Answer}

/-- An entry that does not define a method leaves it as it is. -/
theorem ownMethod?_of_not_defined (outcome : w.Outcome request result)
    (grounded : w.Grounded) {c : ClassId} {name : String}
    (h : definition? c name (request, result.2) = none) :
    result.1.ownMethod? c name = w.ownMethod? c name := by
  cases outcome with
  | root made _ => exact ownMethod?_withRoot w _ _ _ c name
  | child made _ => exact ownMethod?_withChild w _ _ _ c name
  | declaredRoot _ _ _ => exact ownMethod?_withRoot w _ _ _ c name
  | declaredChild _ _ _ _ => exact ownMethod?_withChild w _ _ _ c name
  | field _ _ _ =>
    rw [ownMethod?_changeClass]
    intro body
    rfl
  | @defined d body numbering method found _ =>
    have hother : ¬ (d = c ∧ method = name) := by
      intro heq
      simp [definition?, heq] at h
    rw [ownMethod?_define found, if_neg hother]
  | @bound d method result label defined =>
    rw [ownMethod?_bind]
    cases defined with
    | dangling dangles =>
      -- There is no class, so there is no method that could get other code.
      have habsent := grounded.absent_of_dangles dangles
      split
      · rename_i heq
        rw [← heq.1, ownMethod?_of_absent habsent]
        rfl
      · rfl
    | @defined _ body numbering _ found _ =>
      have hother : ¬ (d = c ∧ method = name) := by
        intro heq
        simp [definition?, heq] at h
      rw [if_neg hother, ownMethod?_define found, if_neg hother]
  | _ => rfl

/-- An entry that defines a method gives it code, or else leaves the code that it had. -/
theorem ownMethod?_of_defined (outcome : w.Outcome request result) {c : ClassId} {name : String}
    {label? : Option String} (h : definition? c name (request, result.2) = some label?) :
    ∃ method, result.1.ownMethod? c name = some method
      ∧ method.label? = label?.or ((w.ownMethod? c name).bind (·.label?)) := by
  cases outcome with
  | dangling _ =>
    rw [definition?_dangling] at h
    exact nomatch h
  | @defined d body numbering method found _ =>
    rw [definition?] at h
    split at h
    · rename_i heq
      obtain rfl := Option.some.inj h
      rw [ownMethod?_define found, if_pos heq]
      cases w.ownMethod? c name with
      | none => exact ⟨_, rfl, rfl⟩
      | some old => exact ⟨old, rfl, rfl⟩
    · exact nomatch h
  | @bound d method result label defined =>
    cases defined with
    | dangling _ =>
      rw [definition?_dangling] at h
      exact nomatch h
    | @defined _ body numbering _ found _ =>
      rw [definition?] at h
      split at h
      · rename_i heq
        obtain rfl := Option.some.inj h
        rw [ownMethod?_bind, if_pos heq, ownMethod?_define found, if_pos heq]
        cases w.ownMethod? c name with
        | none => exact ⟨_, rfl, rfl⟩
        | some old => exact ⟨_, rfl, rfl⟩
      · exact nomatch h
  | _ => exact nomatch h

end Outcome

/-! ### A world recalls its log -/

/-- A class defines itself what the log has a definition of, and the code is what the definitions
leave. -/
def Recalls (w : World) (log : List (Request × Answer)) : Prop :=
  ∀ c name, (definitions log c name = [] → w.ownMethod? c name = none)
    ∧ (definitions log c name ≠ [] → ∃ method, w.ownMethod? c name = some method
        ∧ method.label? = lastLabel? (definitions log c name))

namespace Recalls

variable {w : World} {log : List (Request × Answer)}

/-- The empty world recalls the empty log. -/
theorem empty : Recalls .empty [] := by
  intro c name
  refine ⟨fun _ => ?_, fun h => absurd rfl h⟩
  apply ownMethod?_of_absent
  simp [classAt?, World.empty]

/-- A name that a class has no method for was never defined there. -/
theorem definitions_eq_nil (h : w.Recalls log) {c : ClassId} {name : String}
    (hnone : w.ownMethod? c name = none) : definitions log c name = [] := by
  by_cases hdefined : definitions log c name = []
  · exact hdefined
  · obtain ⟨method, hmethod, -⟩ := (h c name).2 hdefined
    exact nomatch hmethod.symm.trans hnone

/-- The code of a method is what its definitions leave, if there are none also. -/
theorem label?_eq (h : w.Recalls log) (c : ClassId) (name : String) :
    (w.ownMethod? c name).bind (·.label?) = lastLabel? (definitions log c name) := by
  by_cases hdefined : definitions log c name = []
  · rw [(h c name).1 hdefined, hdefined]
    rfl
  · obtain ⟨method, hmethod, hlabel⟩ := (h c name).2 hdefined
    rw [hmethod, ← hlabel]
    rfl

/-- One more request is one more entry. -/
theorem serve (h : w.Recalls log) (grounded : w.Grounded) (request : Request) :
    (w.serve request).1.Recalls (log ++ [(request, (w.serve request).2)]) := by
  intro c name
  have outcome := w.outcome_serve request
  rw [definitions_concat]
  cases hentry : definition? c name (request, (w.serve request).2) with
  | none =>
    rw [outcome.ownMethod?_of_not_defined grounded hentry, Option.toList_none, List.append_nil]
    exact h c name
  | some label? =>
    obtain ⟨method, hmethod, hlabel⟩ := outcome.ownMethod?_of_defined hentry
    refine ⟨fun hnone => ?_, fun _ => ⟨method, hmethod, ?_⟩⟩
    · simp at hnone
    · rw [hlabel, h.label?_eq]
      exact (lastLabel?_concat _ label?).symm

/-- A run is recalled with its own log behind the one before. -/
theorem run (h : w.Recalls log) (reachable : w.Reachable) (requests : List Request) :
    (w.run requests).1.Recalls (log ++ w.log requests) := by
  induction requests generalizing w log with
  | nil =>
    show w.Recalls (log ++ [])
    rw [List.append_nil]
    exact h
  | cons request requests ih =>
    have hserved := ih (h.serve reachable.built.grounded request) (reachable.serve request)
    rw [List.append_assoc] at hserved
    exact hserved

end Recalls

/-! ### Looking up -/

/-- The name selects a method of this code in the class, at the slot that the hierarchy of the
class has for the name. -/
def Selects (w : World) (c : ClassId) (name : String) (label? : Option String) : Prop :=
  ∃ body numbering slot, w.classAt? c = some body
    ∧ w.numberingAt? body.numbering = some numbering ∧ numbering.demand name = .ok slot
    ∧ w.method? c name = some { name, slot, label? }

/-- A look-up that starts at a class comes to `c`, if nothing nearer defines the method. -/
def ComesTo (w : World) (log : List (Request × Answer)) (name : String) (d c : ClassId) : Prop :=
  ∃ nearer farther, w.lineage d = nearer ++ c :: farther
    ∧ ∀ a ∈ nearer, definitions log a name = []

/-- A method that is found for a class stands at the slot of its name. -/
theorem Built.selects {w : World} (built : w.Built) {c : ClassId} {name : String} {method : Method}
    (h : w.method? c name = some method) : w.Selects c name method.label? := by
  obtain ⟨body, numbering, found, numbered, hslot⟩ := built.slot_of_method h
  obtain rfl := name_of_method? h
  refine ⟨body, numbering, method.slot, found, numbered, ?_, h⟩
  rw [Numbering.demand, hslot]

/-- The class of the lineage that the name comes to decides the method. -/
theorem Recalls.selects {w : World} {log : List (Request × Answer)} (h : w.Recalls log)
    (built : w.Built) {name : String} {d c : ClassId} (comes : w.ComesTo log name d c)
    (defined : definitions log c name ≠ []) :
    w.Selects d name (lastLabel? (definitions log c name)) := by
  obtain ⟨nearer, farther, hlineage, hnone⟩ := comes
  obtain ⟨method, hmethod, hlabel⟩ := (h c name).2 defined
  have hnearer : nearer.findSome? (w.ownMethod? · name) = none := by
    rw [List.findSome?_eq_none_iff]
    intro a ha
    exact (h a name).1 (hnone a ha)
  have hfound : w.method? d name = some method := by
    show (w.lineage d).findSome? (w.ownMethod? · name) = some method
    rw [hlineage, List.findSome?_append, hnearer, List.findSome?_cons, hmethod]
    rfl
  rw [← hlabel]
  exact built.selects hfound

/-- Without a definition along the lineage, no method is found. -/
theorem Recalls.method?_eq_none {w : World} {log : List (Request × Answer)} (h : w.Recalls log)
    {name : String} {d : ClassId} (hnone : ∀ c ∈ w.lineage d, definitions log c name = []) :
    w.method? d name = none := by
  show (w.lineage d).findSome? (w.ownMethod? · name) = none
  rw [List.findSome?_eq_none_iff]
  intro c hc
  exact (h c name).1 (hnone c hc)

/-! ### One more definition -/

/-- A change that leaves the class that is extended alone keeps all links. -/
theorem parent?_changeClass {w : World} {changed : ClassId} {change : ClassBody → ClassBody}
    (h : ∀ body, (change body).parent? = body.parent?) (c : ClassId) :
    (w.changeClass changed change).parent? c = w.parent? c := by
  rw [parent?, parent?, classAt?_changeClass]
  split
  · cases w.classAt? c with
    | none => rfl
    | some body => exact h body
  · rfl

/-- Asking for a method makes no class. -/
theorem Outcome.lineage_addMethod {w : World} {c : ClassId} {method : String}
    {result : World × Answer} (outcome : w.Outcome (.addMethod c method) result) (d : ClassId) :
    result.1.lineage d = w.lineage d := by
  refine lineage_congr ?_ d
  intro a
  cases outcome with
  | dangling _ => rfl
  | defined _ _ _ =>
    rw [parent?_changeClass]
    · rfl
    · intro body
      rfl

/-- Neither does giving its code. -/
theorem Outcome.lineage_bindMethod {w : World} {c : ClassId} {method label : String}
    {result : World × Answer} (outcome : w.Outcome (.bindMethod c method label) result)
    (d : ClassId) : result.1.lineage d = w.lineage d := by
  cases outcome with
  | dangling dangles => nomatch dangles
  | bound _ defined =>
    rw [← defined.lineage_addMethod d]
    refine lineage_congr ?_ d
    intro a
    rw [parent?_changeClass]
    intro body
    rfl

/-- A change at one place of a list is not seen by a search that ends before it. -/
theorem findSome?_eq_of_shadowed {α β : Type} {f f' : α → Option β} (c : α) {l : List α}
    (same : ∀ a, a ≠ c → f' a = f a)
    (shadowed : ∀ nearer farther, l = nearer ++ c :: farther → ¬ ∀ a ∈ nearer, f a = none) :
    l.findSome? f' = l.findSome? f := by
  induction l with
  | nil => rfl
  | cons x rest ih =>
    have hx : x ≠ c := by
      rintro rfl
      exact shadowed [] rest rfl (fun _ h => nomatch h)
    rw [List.findSome?_cons, List.findSome?_cons, same x hx]
    cases hfx : f x with
    | some found => rfl
    | none =>
      refine ih ?_
      intro nearer farther hrest hnone
      refine shadowed (x :: nearer) farther (by rw [hrest]; rfl) ?_
      intro a ha
      rcases List.mem_cons.mp ha with rfl | ha
      · exact hfx
      · exact hnone a ha

/-- A class that exists answers a request for a method with a slot. -/
theorem Grounded.slot_of_definition {w : World} (grounded : w.Grounded) {c : ClassId}
    {body : ClassBody} (found : w.classAt? c = some body) (method label : String) :
    ∃ slot, (w.serve (.addMethod c method)).2 = .slot slot
      ∧ (w.serve (.bindMethod c method label)).2 = .slot slot := by
  obtain ⟨_, numbering, -, numbered, -⟩ := grounded.home found
  have hanswer : (w.addMethod c method).2 = .slot (numbering.slotFor method) := by
    simp only [addMethod, found, numbered]
  exact ⟨_, hanswer, hanswer⟩

/-- Code that a class gives to a method is found from wherever a look-up comes to the class. -/
theorem Recalls.selects_bindMethod {w : World} {log : List (Request × Answer)} (h : w.Recalls log)
    (reachable : w.Reachable) {c d : ClassId} {body : ClassBody}
    (found : w.classAt? c = some body) {method : String} (comes : w.ComesTo log method d c)
    (label : String) : (w.serve (.bindMethod c method label)).1.Selects d method (some label) := by
  have grounded := reachable.built.grounded
  obtain ⟨slot, -, hanswer⟩ := grounded.slot_of_definition found method label
  obtain ⟨nearer, farther, hlineage, hnone⟩ := comes
  have hentry : ∀ a, definition? a method
      (.bindMethod c method label, (w.serve (.bindMethod c method label)).2)
        = if c = a then some (some label) else none := by
    intro a
    rw [hanswer]
    simp [definition?]
  have hrecalls := h.serve grounded (.bindMethod c method label)
  have hdefinitions : definitions (log ++ [(.bindMethod c method label,
      (w.serve (.bindMethod c method label)).2)]) c method
        = definitions log c method ++ [some label] := by
    rw [definitions_concat, hentry, if_pos rfl]
    rfl
  have hcomes : (w.serve (.bindMethod c method label)).1.ComesTo
      (log ++ [(.bindMethod c method label, (w.serve (.bindMethod c method label)).2)])
        method d c := by
    refine ⟨nearer, farther, ?_, ?_⟩
    · rw [(w.outcome_serve (.bindMethod c method label)).lineage_bindMethod, hlineage]
    · intro a ha
      -- The class is no ancestor of itself, so nothing nearer was defined by the request.
      have hnodup := grounded.nodup_lineage d
      have hne : c ≠ a := by
        rintro rfl
        rw [hlineage, List.nodup_append] at hnodup
        exact hnodup.2.2 c ha c List.mem_cons_self rfl
      rw [definitions_concat, hentry, if_neg hne, hnone a ha]
      rfl
  have hselects := hrecalls.selects (reachable.serve _).built hcomes (by rw [hdefinitions]; simp)
  rw [hdefinitions, lastLabel?_concat] at hselects
  exact hselects

/-- Code that a class gives to a method is not found where a look-up does not come to the class, and
not under another name. -/
theorem Recalls.method?_bindMethod {w : World} {log : List (Request × Answer)} (h : w.Recalls log)
    (grounded : w.Grounded) {c d : ClassId} {method label name : String}
    (hnot : ¬ (name = method ∧ w.ComesTo log method d c)) :
    (w.serve (.bindMethod c method label)).1.method? d name = w.method? d name := by
  have outcome := w.outcome_serve (.bindMethod c method label)
  have hsame : ∀ a, ¬ (c = a ∧ method = name) →
      (w.serve (.bindMethod c method label)).1.ownMethod? a name = w.ownMethod? a name := by
    intro a hother
    apply outcome.ownMethod?_of_not_defined grounded
    cases (w.serve (.bindMethod c method label)).2 <;> simp [definition?, hother]
  show ((w.serve (.bindMethod c method label)).1.lineage d).findSome?
    ((w.serve (.bindMethod c method label)).1.ownMethod? · name) = _
  rw [outcome.lineage_bindMethod]
  by_cases hname : name = method
  · refine findSome?_eq_of_shadowed c ?_ ?_
    · intro a ha
      apply hsame
      rintro ⟨rfl, -⟩
      exact ha rfl
    · -- A look-up that finds nothing nearer comes to the class.
      intro nearer farther hlineage hnone
      refine hnot ⟨hname, nearer, farther, hlineage, ?_⟩
      intro a ha
      exact h.definitions_eq_nil (hname ▸ hnone a ha)
  · have hfun : ((w.serve (.bindMethod c method label)).1.ownMethod? · name)
        = (w.ownMethod? · name) := by
      funext a
      apply hsame
      rintro ⟨-, rfl⟩
      exact hname rfl
    rw [hfun]
    rfl

/-- To define a method again without code changes nothing. -/
theorem Recalls.method?_addMethod {w : World} {log : List (Request × Answer)} (h : w.Recalls log)
    {c : ClassId} {method : String} (defined : definitions log c method ≠ []) (d : ClassId)
    (name : String) : (w.serve (.addMethod c method)).1.method? d name = w.method? d name := by
  have outcome := w.outcome_serve (.addMethod c method)
  obtain ⟨old, hold, -⟩ := (h c method).2 defined
  have hfun : ((w.serve (.addMethod c method)).1.ownMethod? · name) = (w.ownMethod? · name) := by
    funext a
    generalize w.serve (.addMethod c method) = result at outcome ⊢
    cases outcome with
    | dangling _ => rfl
    | @defined _ body numbering _ found _ =>
      rw [ownMethod?_define found]
      split
      · rename_i heq
        obtain ⟨rfl, rfl⟩ := heq
        rw [hold]
        rfl
      · rfl
  show ((w.serve (.addMethod c method)).1.lineage d).findSome?
    ((w.serve (.addMethod c method)).1.ownMethod? · name) = _
  rw [outcome.lineage_addMethod, hfun]
  rfl

/-- A look-up finds the nearest definition that the run has asked for, with the code that was given
last.

If the log has no definition of the method in the class or its ancestors, then nothing is found,
whatever else the name was used for. Otherwise the look-up comes to the nearest class that has one.
What it finds has the slot of the name in the hierarchy of the class and the code that the
definitions in the nearest class leave. Every request for a method of a class that exists is
answered with a slot and so counts as a definition.

If a method is given code once more, exactly the look-ups of this name that come to the class find
the code, and all others find what they found before. To define it again without code changes what
no look-up finds. -/
theorem lookup_finds_nearest_definition (requests : List Request) :
    (∀ d name, (∀ c ∈ (after requests).lineage d,
          definitions (World.empty.log requests) c name = []) →
        (after requests).method? d name = none)
    ∧ (∀ d c name, (after requests).ComesTo (World.empty.log requests) name d c →
        definitions (World.empty.log requests) c name ≠ [] →
        (after requests).Selects d name
          (lastLabel? (definitions (World.empty.log requests) c name)))
    ∧ (∀ c body, (after requests).classAt? c = some body → ∀ method label,
        (∃ slot, ((after requests).serve (.addMethod c method)).2 = .slot slot
          ∧ ((after requests).serve (.bindMethod c method label)).2 = .slot slot)
        ∧ ∀ d name,
          (name = method ∧ (after requests).ComesTo (World.empty.log requests) method d c →
            ((after requests).serve (.bindMethod c method label)).1.Selects d name (some label))
          ∧ (¬ (name = method ∧ (after requests).ComesTo (World.empty.log requests) method d c) →
            ((after requests).serve (.bindMethod c method label)).1.method? d name
              = (after requests).method? d name))
    ∧ (∀ c method, definitions (World.empty.log requests) c method ≠ [] → ∀ d name,
        ((after requests).serve (.addMethod c method)).1.method? d name
          = (after requests).method? d name) := by
  have reachable : (after requests).Reachable := Reachable.empty.run requests
  have grounded := reachable.built.grounded
  have recalls : (after requests).Recalls (World.empty.log requests) :=
    Recalls.empty.run .empty requests
  refine ⟨?_, ?_, ?_, ?_⟩
  · intro d name hnone
    exact recalls.method?_eq_none hnone
  · intro d c name comes defined
    exact recalls.selects reachable.built comes defined
  · intro c body found method label
    refine ⟨grounded.slot_of_definition found method label, ?_⟩
    intro d name
    refine ⟨?_, ?_⟩
    · rintro ⟨rfl, comes⟩
      exact recalls.selects_bindMethod reachable found comes label
    · intro hnot
      exact recalls.method?_bindMethod grounded hnot
  · intro c method defined d name
    exact recalls.method?_addMethod defined d name

/-- A class and its child, which overrides a method before the parent gets the code of it. The
sibling of the child has a method of its own. -/
def overriding : List Request := [
  .openGlobals .standard, .addRoot "A" ⟨0⟩, .addChild "B" ⟨0⟩, .addChild "C" ⟨0⟩,
  .bindMethod ⟨1⟩ "go" "B_go", .addMethod ⟨1⟩ "go", .bindMethod ⟨0⟩ "go" "A_go",
  .addMethod ⟨2⟩ "stop", .allocate ⟨0⟩ "late"]

/-- The child keeps its own code, its sibling sees that of the parent, and neither sees a method of
the other. -/
theorem lookup_finds_nearest_definition_overriding :
    (after overriding).Selects ⟨1⟩ "go" (some "B_go")
    ∧ (after overriding).Selects ⟨2⟩ "go" (some "A_go")
    ∧ (after overriding).method? ⟨1⟩ "stop" = none
    ∧ (after overriding).method? ⟨1⟩ "late" = none
    ∧ ((after overriding).serve (.bindMethod ⟨0⟩ "go" "A_go2")).1.Selects ⟨2⟩ "go"
        (some "A_go2") := by
  obtain ⟨hnone, hselects, hbind, -⟩ := lookup_finds_nearest_definition overriding
  have hchild : (after overriding).lineage ⟨1⟩ = [⟨1⟩, ⟨0⟩] := by decide +kernel
  have hsibling : (after overriding).lineage ⟨2⟩ = [⟨2⟩, ⟨0⟩] := by decide +kernel
  have hcomes : (after overriding).ComesTo (World.empty.log overriding) "go" ⟨2⟩ ⟨0⟩ :=
    ⟨[⟨2⟩], [], hsibling, by decide +kernel⟩
  refine ⟨hselects ⟨1⟩ ⟨1⟩ "go" ⟨[], [⟨0⟩], hchild, by simp⟩ (by decide +kernel),
    hselects ⟨2⟩ ⟨0⟩ "go" hcomes (by decide +kernel),
    hnone ⟨1⟩ "stop" ?_, hnone ⟨1⟩ "late" ?_, ?_⟩
  · rw [hchild]
    decide +kernel
  · rw [hchild]
    decide +kernel
  · obtain ⟨-, hdecides⟩ := hbind ⟨0⟩ _ (by rfl) "go" "A_go2"
    exact (hdecides ⟨2⟩ "go").1 ⟨rfl, hcomes⟩

end World

end ScopeLayout
