import Mathlib.Data.List.Chain
import ScopeLayout.Proofs.Hierarchy
import ScopeLayout.World.Resolution

/-!
# `ScopeLayout.Proofs.ScopeChain`: resolving is looking along a chain

`World.resolve` asks one scope after the other, and each kind of scope passes on
what it does not bind in a way of its own. Here the same is said without the
scopes asking each other. The way outwards from a scope is a list
(`Scope.way`) that never comes back to a scope it has left (`Scope.nodup_way`).
The frames on it are looked through in order, and the first that binds the name
answers (`Frame.Binds`). What no frame binds is decided where the way ends, by
the rules of `World.AnswersAtEnd`.

`resolve_eq` takes the look-up apart in this way, and `resolve_first_match` says
that it follows the rules, for every scope whose end exists.
-/

set_option autoImplicit false

namespace ScopeLayout

/-! ### The way outwards -/

namespace Scope

/-- The scope around a scope. -/
def outward? : Scope → Option Scope
  | .function _ definedIn => some definedIn
  | .block _ enclosing => some enclosing
  | .globals _ => none
  | .classBody _ => none
  | .looseBlock _ => none

/-- A scope and all scopes around it, innermost first. -/
def way : Scope → List Scope
  | .function signature definedIn => .function signature definedIn :: definedIn.way
  | .block locals enclosing => .block locals enclosing :: enclosing.way
  | .globals g => [.globals g]
  | .classBody c => [.classBody c]
  | .looseBlock locals => [.looseBlock locals]

/-- The bindings of a scope itself. -/
def frame? : Scope → Option Frame
  | .function signature _ => some (.parameters signature)
  | .block locals _ => some (.locals locals)
  | .looseBlock locals => some (.locals locals)
  | .globals _ => none
  | .classBody _ => none

/-- The scope has nothing around it, and this is the end that it makes. -/
inductive IsEnd : Scope → Outermost → Prop where
  | globals (g : GlobalsId) : IsEnd (.globals g) (.globals g)
  | classBody (c : ClassId) : IsEnd (.classBody c) (.classBody c)
  | nothing (locals : Locals) : IsEnd (.looseBlock locals) .nothing

/-- There is nothing around an end. -/
theorem IsEnd.outward?_eq_none {s : Scope} {e : Outermost} (h : s.IsEnd e) : s.outward? = none := by
  cases h <;> rfl

/-- A scope makes one end only. -/
theorem IsEnd.iff_eq {s : Scope} {e e' : Outermost} (h : s.IsEnd e) : s.IsEnd e' ↔ e' = e := by
  constructor
  · intro h'
    cases h <;> cases h' <;> rfl
  · rintro rfl
    exact h

/-- The induction along the way, from the end inwards. -/
theorem outward_induction {P : Scope → Prop} (last : ∀ s, s.outward? = none → P s)
    (inner : ∀ s outer, s.outward? = some outer → P outer → P s) (s : Scope) : P s := by
  induction s with
  | globals g => exact last _ rfl
  | classBody c => exact last _ rfl
  | looseBlock locals => exact last _ rfl
  | function signature definedIn ih => exact inner _ definedIn rfl ih
  | block locals enclosing ih => exact inner _ enclosing rfl ih

/-- The way outwards from the last scope is that scope. -/
theorem way_of_last {s : Scope} (h : s.outward? = none) : s.way = [s] := by
  cases s with
  | function signature definedIn => exact nomatch h
  | block locals enclosing => exact nomatch h
  | _ => rfl

/-- From any other it goes on with the way of the scope around it. -/
theorem way_of_inner {s outer : Scope} (h : s.outward? = some outer) :
    s.way = s :: outer.way := by
  cases s with
  | function signature definedIn =>
    obtain rfl : definedIn = outer := Option.some.inj h
    rfl
  | block locals enclosing =>
    obtain rfl : enclosing = outer := Option.some.inj h
    rfl
  | _ => exact nomatch h

/-- A scope with nothing around it is an end. -/
theorem isEnd_of_last {s : Scope} (h : s.outward? = none) : s.IsEnd s.outermost := by
  cases s with
  | globals g => exact .globals g
  | classBody c => exact .classBody c
  | looseBlock locals => exact .nothing locals
  | function signature definedIn => exact nomatch h
  | block locals enclosing => exact nomatch h

/-- A scope ends where the scope around it ends. -/
theorem outermost_of_inner {s outer : Scope} (h : s.outward? = some outer) :
    s.outermost = outer.outermost := by
  cases s with
  | function signature definedIn =>
    obtain rfl : definedIn = outer := Option.some.inj h
    rfl
  | block locals enclosing =>
    obtain rfl : enclosing = outer := Option.some.inj h
    rfl
  | _ => exact nomatch h

/-- The scope around a scope is a part of it. -/
theorem sizeOf_lt_of_inner {s outer : Scope} (h : s.outward? = some outer) :
    sizeOf outer < sizeOf s := by
  cases s with
  | function signature definedIn =>
    obtain rfl : definedIn = outer := Option.some.inj h
    simp only [function.sizeOf_spec]
    omega
  | block locals enclosing =>
    obtain rfl : enclosing = outer := Option.some.inj h
    simp only [block.sizeOf_spec]
    omega
  | _ => exact nomatch h

/-- The way begins with the scope itself. -/
theorem head?_way (s : Scope) : s.way.head? = some s := by
  cases s <;> rfl

/-- Each scope on the way is the one around the scope before it. -/
theorem isChain_way (s : Scope) :
    s.way.IsChain fun inner outer => inner.outward? = some outer := by
  induction s using outward_induction with
  | last s hs =>
    rw [way_of_last hs]
    exact .singleton s
  | inner s outer hs ih =>
    rw [way_of_inner hs, List.isChain_cons]
    refine ⟨?_, ih⟩
    intro next hnext
    rw [outer.head?_way] at hnext
    exact hs.trans hnext

/-- No scope around a scope is larger. -/
theorem sizeOf_le_of_mem_way {s : Scope} : ∀ {outer}, outer ∈ s.way → sizeOf outer ≤ sizeOf s := by
  induction s using outward_induction with
  | last s hs =>
    intro outer houter
    rw [way_of_last hs, List.mem_singleton] at houter
    rw [houter]
  | inner s next hs ih =>
    intro outer houter
    have hsize := sizeOf_lt_of_inner hs
    rw [way_of_inner hs] at houter
    rcases List.mem_cons.mp houter with rfl | hmem
    · exact Nat.le_refl _
    · have := ih hmem
      omega

/-- The way comes to no scope twice: each scope on it is smaller than the one before. -/
theorem nodup_way (s : Scope) : s.way.Nodup := by
  induction s using outward_induction with
  | last s hs =>
    rw [way_of_last hs]
    simp
  | inner s outer hs ih =>
    rw [way_of_inner hs, List.nodup_cons]
    refine ⟨?_, ih⟩
    intro hmem
    have hle := sizeOf_le_of_mem_way hmem
    have hlt := sizeOf_lt_of_inner hs
    omega

/-- The way ends where `outermost` says. -/
theorem getLast?_way (s : Scope) : ∃ last, s.way.getLast? = some last ∧ last.IsEnd s.outermost := by
  induction s using outward_induction with
  | last s hs => exact ⟨s, by rw [way_of_last hs]; rfl, isEnd_of_last hs⟩
  | inner s outer hs ih =>
    obtain ⟨last, hlast, hend⟩ := ih
    refine ⟨last, ?_, ?_⟩
    · rw [way_of_inner hs, List.getLast?_cons, hlast]
      rfl
    · rw [outermost_of_inner hs]
      exact hend

/-- The frames are those of the scopes on the way. -/
theorem frames_eq_filterMap_way (s : Scope) : s.frames = s.way.filterMap frame? := by
  induction s with
  | globals g => rfl
  | classBody c => rfl
  | looseBlock locals => rfl
  | function signature definedIn ih =>
    rw [frames, way, List.filterMap_cons, ih]
    rfl
  | block locals enclosing ih =>
    rw [frames, way, List.filterMap_cons, ih]
    rfl

end Scope

/-! ### Names and their marks -/

/-- The name begins with exactly one `@`. -/
def HasOneMark (name : String) : Prop :=
  (∃ rest, name = "@" ++ rest) ∧ ∀ bare, name ≠ "@@" ++ bare

/-- A name begins with a mark if its characters do. -/
theorem eq_mark_append_iff {name rest : String} :
    name = "@" ++ rest ↔ name.toList = '@' :: rest.toList := by
  rw [← String.toList_inj, String.toList_append]
  rfl

/-- The same of two marks. -/
theorem eq_two_marks_append_iff {name bare : String} :
    name = "@@" ++ bare ↔ name.toList = '@' :: '@' :: bare.toList := by
  rw [← String.toList_inj, String.toList_append]
  rfl

namespace Spelling

/-- The names with two marks are those of class variables. -/
theorem of_eq_classVar_iff {name bare : String} :
    Spelling.of name = .classVar bare ↔ name = "@@" ++ bare := by
  rw [eq_two_marks_append_iff, Spelling.of]
  constructor
  · intro h
    split at h
    · rename_i rest hrest
      obtain rfl : String.ofList rest = bare := Spelling.classVar.inj h
      rw [hrest, String.toList_ofList]
    · exact nomatch h
    · exact nomatch h
  · intro h
    rw [h]
    show Spelling.classVar (String.ofList bare.toList) = .classVar bare
    rw [String.ofList_toList]

/-- The names with just one are those of fields. -/
theorem of_eq_field_iff {name : String} : Spelling.of name = .field ↔ HasOneMark name := by
  constructor
  · intro h
    refine ⟨?_, ?_⟩
    · rw [Spelling.of] at h
      split at h
      · exact nomatch h
      · rename_i rest _ hrest
        refine ⟨String.ofList rest, ?_⟩
        rw [eq_mark_append_iff, hrest, String.toList_ofList]
      · exact nomatch h
    · intro bare hbare
      rw [of_eq_classVar_iff.mpr hbare] at h
      exact nomatch h
  · rintro ⟨⟨rest, hrest⟩, hone⟩
    rw [eq_mark_append_iff] at hrest
    cases hof : Spelling.of name with
    | field => rfl
    | classVar bare => exact absurd (of_eq_classVar_iff.mp hof) (hone bare)
    | plain =>
      -- A name that begins with a mark comes under one of the first two patterns.
      rw [Spelling.of, hrest] at hof
      split at hof
      · exact nomatch hof
      · exact nomatch hof
      · rename_i _ hno
        exact absurd rfl (hno rest.toList)

end Spelling

/-! ### Frames -/

namespace Frame

/-- What a frame binds a name to. -/
def binding? (frame : Frame) (name : String) : Option Referent :=
  match frame with
  | .parameters signature => (signature.position? name).map .argument
  | .locals bindings => (bindings.find? name).map .localVar

/-- The frame binds the name, and to this. A parameter binds its name unless an earlier one of the
same function does. -/
inductive Binds (name : String) : Frame → Referent → Prop where
  | argument {signature : Signature} {position : Nat} {parameter : Parameter}
      (placed : signature.parameters[position]? = some parameter) (named : parameter.name = name)
      (first : ∀ earlier < position, ∀ other, signature.parameters[earlier]? = some other →
        other.name ≠ name) : Binds name (.parameters signature) (.argument position)
  | localVar {bindings : Locals} {index : Nat} (listed : bindings.find? name = some index) :
      Binds name (.locals bindings) (.localVar index)

/-- What a frame answers is what it binds. -/
theorem binding?_eq_some_iff {frame : Frame} {name : String} {r : Referent} :
    frame.binding? name = some r ↔ frame.Binds name r := by
  constructor
  · intro h
    cases frame with
    | parameters signature =>
      obtain ⟨position, hposition, rfl⟩ := Option.map_eq_some_iff.mp h
      obtain ⟨hlt, hnamed, hfirst⟩ := List.findIdx?_eq_some_iff_getElem.mp hposition
      refine .argument (List.getElem?_eq_getElem hlt) (of_decide_eq_true hnamed) ?_
      intro earlier hearlier other hother heq
      obtain ⟨_, rfl⟩ := List.getElem?_eq_some_iff.mp hother
      exact hfirst earlier hearlier (decide_eq_true heq)
    | locals bindings =>
      obtain ⟨index, hindex, rfl⟩ := Option.map_eq_some_iff.mp h
      exact .localVar hindex
  · intro h
    cases h with
    | @argument signature position parameter placed named first =>
      refine Option.map_eq_some_iff.mpr ⟨position, ?_, rfl⟩
      obtain ⟨hlt, rfl⟩ := List.getElem?_eq_some_iff.mp placed
      refine List.findIdx?_eq_some_iff_getElem.mpr ⟨hlt, decide_eq_true named, ?_⟩
      intro earlier hearlier heq
      exact first earlier hearlier _ (List.getElem?_eq_getElem _) (of_decide_eq_true heq)
    | localVar listed =>
      exact Option.map_eq_some_iff.mpr ⟨_, listed, rfl⟩

end Frame

/-! ### Where the way ends -/

namespace World

/-- The end of a way exists. -/
def Hosts (w : World) : Outermost → Prop
  | .globals g => ∃ globals, w.globalsAt? g = some globals
  | .classBody c => ∃ body, w.classAt? c = some body
  | .nothing => True

/-- What a name denotes that no frame binds, by where the way ends. In a block that nothing encloses
it is an address, and at a module level a global or a method call. In a class, a name with one mark
is a field if the class lists it, and a name with two marks is a class variable in any case. All
other names go to the module level around the class. -/
inductive AnswersAtEnd (w : World) (name : String) : Outermost → Referent → Prop where
  | address : AnswersAtEnd w name .nothing (.address name)
  | global {g : GlobalsId} {globals : Globals} (found : w.globalsAt? g = some globals)
      (registered : name ∈ globals.names) : AnswersAtEnd w name (.globals g) (.global name)
  | methodCall {g : GlobalsId} {globals : Globals} (found : w.globalsAt? g = some globals)
      (unknown : name ∉ globals.names) : AnswersAtEnd w name (.globals g) (.methodCall name)
  | field {c : ClassId} {body : ClassBody} {slot : Nat} (found : w.classAt? c = some body)
      (mark : HasOneMark name) (placed : body.fields.indexOf? name = some slot) :
      AnswersAtEnd w name (.classBody c) (.field slot)
  | classVar {c : ClassId} {body : ClassBody} {globals : Globals} {bare : String}
      (found : w.classAt? c = some body) (home : w.globalsAt? body.globals = some globals)
      (marks : name = "@@" ++ bare) :
      AnswersAtEnd w name (.classBody c)
        (.classVar (globals.settings.classVarPrefix ++ body.name ++ "__" ++ bare))
  | around {c : ClassId} {body : ClassBody} {r : Referent} (found : w.classAt? c = some body)
      (nofield : HasOneMark name → name ∉ body.fields) (unmarked : ∀ bare, name ≠ "@@" ++ bare)
      (answer : AnswersAtEnd w name (.globals body.globals) r) :
      AnswersAtEnd w name (.classBody c) r

/-- The rules leave no choice. -/
theorem AnswersAtEnd.unique {w : World} {name : String} {e : Outermost} {r r' : Referent}
    (h : w.AnswersAtEnd name e r) (h' : w.AnswersAtEnd name e r') : r = r' := by
  -- In a class the marks of the name decide between the rules. Only a name with one mark can come
  -- under two of them, and then it is listed as a field or it is not.
  induction h with
  | address =>
    cases h'
    rfl
  | global found registered =>
    cases h' with
    | global => rfl
    | methodCall found' unknown =>
      obtain rfl := Option.some.inj (found.symm.trans found')
      exact absurd registered unknown
  | methodCall found unknown =>
    cases h' with
    | methodCall => rfl
    | global found' registered =>
      obtain rfl := Option.some.inj (found.symm.trans found')
      exact absurd registered unknown
  | field found mark placed =>
    cases h' with
    | field found' _ placed' =>
      obtain rfl := Option.some.inj (found.symm.trans found')
      rw [Option.some.inj (placed.symm.trans placed')]
    | classVar _ _ marks => exact absurd marks (mark.2 _)
    | around found' nofield _ _ =>
      obtain rfl := Option.some.inj (found.symm.trans found')
      rw [Roster.indexOf?_eq_none_iff.mpr (nofield mark)] at placed
      exact nomatch placed
  | classVar found home marks =>
    cases h' with
    | field _ mark _ => exact absurd marks (mark.2 _)
    | classVar found' home' marks' =>
      obtain rfl := Option.some.inj (found.symm.trans found')
      obtain rfl := Option.some.inj (home.symm.trans home')
      rw [(String.append_right_inj "@@").mp (marks.symm.trans marks')]
    | around _ _ unmarked _ => exact absurd marks (unmarked _)
  | around found nofield unmarked _ ih =>
    cases h' with
    | field found' mark placed =>
      obtain rfl := Option.some.inj (found.symm.trans found')
      rw [Roster.indexOf?_eq_none_iff.mpr (nofield mark)] at placed
      exact nomatch placed
    | classVar _ _ marks => exact absurd marks (unmarked _)
    | around found' _ _ answer =>
      obtain rfl := Option.some.inj (found.symm.trans found')
      exact ih answer

/-- The answer where the way ends. -/
def resolveAtEnd (w : World) (name : String) : Outermost → Referent
  | .globals g => w.resolveGlobal g name
  | .classBody c => w.resolveMember c name
  | .nothing => .address name

/-- Asking outwards is looking through the frames, and then at the end. -/
theorem resolve_eq (w : World) (s : Scope) (name : String) : w.resolve s name =
    (s.frames.findSome? (·.binding? name)).getD (w.resolveAtEnd name s.outermost) := by
  induction s with
  | globals g => rfl
  | classBody c => rfl
  | looseBlock locals =>
    rw [resolve, Scope.frames, List.findSome?_cons, Frame.binding?]
    cases locals.find? name with
    | none => rfl
    | some index => rfl
  -- A frame that binds the name answers on both sides, and otherwise both go one scope outwards.
  | function signature definedIn ih =>
    rw [resolve, Scope.frames, List.findSome?_cons, Frame.binding?]
    cases signature.position? name with
    | none => exact ih
    | some position => rfl
  | block locals enclosing ih =>
    rw [resolve, Scope.frames, List.findSome?_cons, Frame.binding?]
    cases locals.find? name with
    | none => exact ih
    | some index => rfl

/-! ### What is found at an end that exists -/

/-- A module level answers with a global or a method call. -/
theorem resolveGlobal_of_found {w : World} {g : GlobalsId} {globals : Globals}
    (found : w.globalsAt? g = some globals) (name : String) :
    w.resolveGlobal g name = if name ∈ globals.names then .global name else .methodCall name := by
  rw [resolveGlobal, found]
  rfl

/-- A class passes a name on to its module level. -/
theorem resolveAround_of_found {w : World} {c : ClassId} {body : ClassBody}
    (found : w.classAt? c = some body) (name : String) :
    w.resolveAround c name = w.resolveGlobal body.globals name := by
  rw [resolveAround, found]

/-- The place of a field is written in the body of the class. -/
theorem fieldIndex?_of_found {w : World} {c : ClassId} {body : ClassBody}
    (found : w.classAt? c = some body) (name : String) :
    w.fieldIndex? c name = body.fields.indexOf? name := by
  rw [fieldIndex?, found]
  rfl

/-- The key of a class variable joins the prefix, the class and the bare name. -/
theorem classVarKey?_of_found {w : World} {c : ClassId} {body : ClassBody} {globals : Globals}
    (found : w.classAt? c = some body) (home : w.globalsAt? body.globals = some globals)
    (bare : String) : w.classVarKey? c bare
      = some (globals.settings.classVarPrefix ++ body.name ++ "__" ++ bare) := by
  rw [classVarKey?, found]
  simp [home]

/-- A module level answers by the rules. -/
theorem answersAtEnd_resolveGlobal {w : World} {g : GlobalsId} {globals : Globals}
    (found : w.globalsAt? g = some globals) (name : String) :
    w.AnswersAtEnd name (.globals g) (w.resolveGlobal g name) := by
  rw [resolveGlobal_of_found found]
  split
  · rename_i registered
    exact .global found registered
  · rename_i unknown
    exact .methodCall found unknown

/-- So does a class. -/
theorem answersAtEnd_resolveMember {w : World} {c : ClassId} {body : ClassBody} {globals : Globals}
    (found : w.classAt? c = some body) (home : w.globalsAt? body.globals = some globals)
    (name : String) : w.AnswersAtEnd name (.classBody c) (w.resolveMember c name) := by
  have haround := resolveAround_of_found found name
  rw [resolveMember]
  -- One case for each spelling: one mark, two marks, none.
  split
  · rename_i hfield
    have hmark := Spelling.of_eq_field_iff.mp hfield
    rw [fieldIndex?_of_found found]
    cases hplace : body.fields.indexOf? name with
    | some slot => exact .field found hmark hplace
    | none =>
      show w.AnswersAtEnd name (.classBody c) (w.resolveAround c name)
      rw [haround]
      exact .around found (fun _ => Roster.indexOf?_eq_none_iff.mp hplace) hmark.2
        (answersAtEnd_resolveGlobal home name)
  · rename_i bare hbare
    rw [classVarKey?_of_found found home]
    exact .classVar found home (Spelling.of_eq_classVar_iff.mp hbare)
  · rename_i hplain
    rw [haround]
    refine .around found ?_ ?_ (answersAtEnd_resolveGlobal home name)
    · intro hmark
      rw [Spelling.of_eq_field_iff.mpr hmark] at hplain
      exact nomatch hplain
    · intro bare hbare
      rw [Spelling.of_eq_classVar_iff.mpr hbare] at hplain
      exact nomatch hplain

/-- So does every end that exists. -/
theorem answersAtEnd_resolveAtEnd {w : World} (grounded : w.Grounded) {e : Outermost}
    (hosted : w.Hosts e) (name : String) : w.AnswersAtEnd name e (w.resolveAtEnd name e) := by
  cases e with
  | nothing => exact .address
  | globals g =>
    obtain ⟨globals, found⟩ := hosted
    exact answersAtEnd_resolveGlobal found name
  | classBody c =>
    obtain ⟨body, found⟩ := hosted
    obtain ⟨globals, _, home, -⟩ := grounded.home found
    exact answersAtEnd_resolveMember found home name

/-- No frame binds a name that is looked up in vain. -/
theorem findSome?_binding?_eq_none_iff {frames : List Frame} {name : String} :
    frames.findSome? (·.binding? name) = none ↔ ∀ frame ∈ frames, ∀ r, ¬ frame.Binds name r := by
  rw [List.findSome?_eq_none_iff]
  constructor
  · intro h frame hframe r hbinds
    rw [← Frame.binding?_eq_some_iff, h frame hframe] at hbinds
    exact nomatch hbinds
  · intro h frame hframe
    cases hbinding : frame.binding? name with
    | none => rfl
    | some r => exact absurd (Frame.binding?_eq_some_iff.mp hbinding) (h frame hframe r)

/-- A name is looked up to the first frame that binds it. -/
theorem findSome?_binding?_eq_some_iff {frames : List Frame} {name : String} {r : Referent} :
    frames.findSome? (·.binding? name) = some r ↔ ∃ inner frame outer,
      frames = inner ++ frame :: outer ∧ (∀ f ∈ inner, ∀ r', ¬ f.Binds name r')
        ∧ frame.Binds name r := by
  rw [List.findSome?_eq_some_iff]
  constructor
  · rintro ⟨inner, frame, outer, hframes, hbinding, hinner⟩
    rw [← List.findSome?_eq_none_iff, findSome?_binding?_eq_none_iff] at hinner
    exact ⟨inner, frame, outer, hframes, hinner, Frame.binding?_eq_some_iff.mp hbinding⟩
  · rintro ⟨inner, frame, outer, hframes, hinner, hbinds⟩
    rw [← findSome?_binding?_eq_none_iff, List.findSome?_eq_none_iff] at hinner
    exact ⟨inner, frame, outer, hframes, Frame.binding?_eq_some_iff.mpr hbinds, hinner⟩

/-- A name denotes what the first frame binds it to that binds it, or else what it denotes at the
end. -/
theorem resolve_eq_iff {w : World} (grounded : w.Grounded) (s : Scope)
    (hosted : w.Hosts s.outermost) (name : String) {r : Referent} : w.resolve s name = r ↔
      (∃ inner frame outer, s.frames = inner ++ frame :: outer
        ∧ (∀ f ∈ inner, ∀ r', ¬ f.Binds name r') ∧ frame.Binds name r)
      ∨ (∀ f ∈ s.frames, ∀ r', ¬ f.Binds name r') ∧ w.AnswersAtEnd name s.outermost r := by
  have hend := answersAtEnd_resolveAtEnd grounded hosted name
  rw [resolve_eq, ← findSome?_binding?_eq_some_iff, ← findSome?_binding?_eq_none_iff]
  cases s.frames.findSome? (·.binding? name) with
  | some found => simp
  | none =>
    show w.resolveAtEnd name s.outermost = r ↔ _
    simp only [reduceCtorEq, false_or, true_and]
    constructor
    · intro heq
      exact heq ▸ hend
    · intro hr
      exact hend.unique hr

/-- Resolving a name is looking for the first frame on the way outwards that binds it, and then at
the end of the way.

The way starts at the scope, goes from each scope to the one around it, never comes back to a scope
and ends at exactly one of a module level, a class or a block that nothing encloses. A class lies in
a module level that exists. The frames are those of the functions and blocks on the way. The rules
for a name that no frame binds are those of `AnswersAtEnd`, and an address is the answer in a block
that nothing encloses and nowhere else. -/
theorem resolve_first_match {w : World} (reachable : w.Reachable) (s : Scope)
    (hosted : w.Hosts s.outermost) (name : String) :
    s.way.head? = some s
    ∧ s.way.IsChain (fun inner outer => inner.outward? = some outer)
    ∧ s.way.Nodup
    ∧ (∃ last, s.way.getLast? = some last ∧ last.outward? = none
        ∧ ∀ e, last.IsEnd e ↔ e = s.outermost)
    ∧ (∀ c, s.outermost = .classBody c → ∃ body, w.classAt? c = some body
        ∧ w.Hosts (.globals body.globals))
    ∧ s.frames = s.way.filterMap Scope.frame?
    ∧ (∀ r, w.resolve s name = r ↔
        (∃ inner frame outer, s.frames = inner ++ frame :: outer
          ∧ (∀ f ∈ inner, ∀ r', ¬ f.Binds name r') ∧ frame.Binds name r)
        ∨ (∀ f ∈ s.frames, ∀ r', ¬ f.Binds name r') ∧ w.AnswersAtEnd name s.outermost r)
    ∧ ∀ cell, w.resolve s name = .address cell → cell = name ∧ s.outermost = .nothing := by
  have grounded := reachable.built.grounded
  refine ⟨s.head?_way, s.isChain_way, s.nodup_way, ?_, ?_, s.frames_eq_filterMap_way,
    fun r => resolve_eq_iff grounded s hosted name, ?_⟩
  · obtain ⟨last, hlast, hlastEnd⟩ := s.getLast?_way
    exact ⟨last, hlast, hlastEnd.outward?_eq_none, fun e => hlastEnd.iff_eq⟩
  · intro c hc
    rw [hc] at hosted
    obtain ⟨body, found⟩ := hosted
    obtain ⟨globals, _, home, -⟩ := grounded.home found
    exact ⟨body, found, globals, home⟩
  · intro cell hcell
    have hrules := (resolve_eq_iff grounded s hosted name).mp hcell
    rcases hrules with ⟨_, _, _, _, _, hbinds⟩ | ⟨_, hanswer⟩
    · exact nomatch hbinds
    · -- What a class passes on is answered at a module level, and never with an address.
      generalize s.outermost = e at hanswer
      cases hanswer with
      | address => exact ⟨rfl, rfl⟩
      | around _ _ _ answer => exact nomatch answer

/-- A module with a global, and a class in it with a field. -/
def namedThings : World := (World.empty.run [
  .openGlobals .standard, .register ⟨0⟩ "$stdout", .addRoot "Point" ⟨0⟩, .addField ⟨0⟩ "@x"]).1

/-- The scope of a block in a method of the class. -/
def blockInMethod : Scope :=
  .block (.ofNames ["tmp"]) (.function (.ofNames (some "move") ["dx", "dx"]) (.classBody ⟨0⟩))

/-- The parameter is found outside the block, and the class variable where the way ends. -/
theorem resolve_first_match_blockInMethod :
    namedThings.Reachable ∧ namedThings.Hosts blockInMethod.outermost
    ∧ namedThings.resolve blockInMethod "dx" = .argument 0
    ∧ namedThings.resolve blockInMethod "@@x" = .classVar "__classvar__Point__x"
    ∧ ∀ cell, namedThings.resolve blockInMethod "@y" ≠ .address cell := by
  have hreachable : namedThings.Reachable := Reachable.empty.run _
  have hosted : namedThings.Hosts blockInMethod.outermost := ⟨_, rfl⟩
  refine ⟨hreachable, hosted, ?_, by decide +kernel, ?_⟩
  · obtain ⟨-, -, -, -, -, -, hresolve, -⟩ :=
      resolve_first_match hreachable blockInMethod hosted "dx"
    refine (hresolve _).mpr (.inl ⟨[.locals (.ofNames ["tmp"])], _, [], rfl, ?_, ?_⟩)
    · intro f hf r hbinds
      rw [List.mem_singleton.mp hf, ← Frame.binding?_eq_some_iff] at hbinds
      exact nomatch hbinds
    · exact Frame.binding?_eq_some_iff.mp rfl
  · intro cell hcell
    obtain ⟨-, -, -, -, -, -, -, haddress⟩ :=
      resolve_first_match hreachable blockInMethod hosted "@y"
    exact nomatch (haddress cell hcell).2

end World

end ScopeLayout
