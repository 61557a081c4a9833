import Mathlib.Data.List.Induction
import ScopeLayout.Proofs.Hierarchy
import ScopeLayout.Proofs.Numbering

/-!
# `ScopeLayout.Proofs.RequestHistory`: a numbering is what it was asked

Six requests lead to the slots of a numbering: it is asked directly, for a name
or for a call, through any class that shares it, for a method with or without
code, and it can be copied and then be asked as a copy. `World.asked?` says which
numbering a request asks, and for which name. `World.history` writes the names
down with the answers, one list for each numbering. A copy takes over the list
of its source, and from then on both have lists of their own.

`Numbering.Recorded` relates a numbering to its list: one fresh numbering has
the empty list (`Recorded.fresh`), and a request that is served is one more
entry (`Recorded.ask`). `Chronicle` says this of all numberings of a world, and
`Chronicle.serve` carries it over a request. Requests are taken apart for this
in one place only: either they ask (`asked?_eq_some`), or they copy, or else
they make one fresh numbering at most (`numberings_of_not_asked`).

The list says nothing of the header. That is the one of the settings for which the
numbering was made, or of the source if it is a copy (`MadeWith`).

`numbering_of_history` reads off what header and list say about the numbering. The slots
are sums of machine words, and `not_slots_behind_header` is a header behind which they
wrap around.
-/

set_option autoImplicit false

namespace ScopeLayout

/-- What a numbering was asked, oldest first, with the answers. -/
abbrev History := List (String × Answer)

/-- The numbering is what comes of its history: it lists the names of the program that were asked
for, and every name has the slot that it was answered with. -/
structure Numbering.Recorded (numbering : Numbering) (history : History) : Prop where
  lists : numbering.Lists (userNames (history.map Prod.fst))
  answered : ∀ entry ∈ history, ∃ slot, entry.2 = .slot slot
    ∧ numbering.slot? entry.1 = some slot

namespace Numbering.Recorded

variable {numbering : Numbering} {history : History}

/-- A new numbering was asked nothing. -/
theorem fresh (settings : Settings) : (Numbering.fresh settings).Recorded [] where
  lists := Lists.fresh settings
  answered := by simp

/-- A request is one more entry. -/
theorem ask (h : numbering.Recorded history) (name : String) :
    (numbering.allocate name).Recorded (history ++ [(name, .slot (numbering.slotFor name))]) := by
  refine ⟨?_, ?_⟩
  · rw [List.map_append, List.map_singleton, userNames_concat]
    exact h.lists.allocate name
  · intro entry hentry
    rcases List.mem_append.mp hentry with hold | hlast
    · obtain ⟨slot, hslot, hnumbered⟩ := h.answered entry hold
      refine ⟨slot, hslot, ?_⟩
      -- The name has its slot already, so the request hands out no other.
      rw [slot?_allocate]
      split
      · rename_i heq
        rw [slotFor, ← heq, hnumbered]
        rfl
      · exact hnumbered
    · rw [List.mem_singleton.mp hlast]
      exact ⟨numbering.slotFor name, rfl, by rw [slot?_allocate, if_pos rfl]⟩

end Numbering.Recorded

namespace World

/-! ### Who is asked for what -/

/-- The numbering that a class asks for a method. -/
def askedByClass? (w : World) (c : ClassId) (method : String) : Option (NumberingId × String) := do
  let body ← w.classAt? c
  let _ ← w.numberingAt? body.numbering
  some (body.numbering, method)

/-- The numbering that a request asks, and the name that it asks for. A request that refers to a
thing that was never made asks nothing. -/
def asked? (w : World) : Request → Option (NumberingId × String)
  | .allocate n name => (w.numberingAt? n).map fun _ => (n, name)
  | .allocateCall n call => (w.numberingAt? n).map fun _ => (n, call.method)
  | .addMethod c method => w.askedByClass? c method
  | .bindMethod c method _ => w.askedByClass? c method
  | _ => none

/-- The names that a request asks one numbering for: one at most. -/
def namesAsked (w : World) (n : NumberingId) (request : Request) : List String :=
  match w.asked? request with
  | some (m, name) => if n = m then [name] else []
  | none => []

/-- The names that one numbering is asked for while the requests are served. -/
def namesAskedAll (w : World) (n : NumberingId) : List Request → List String
  | [] => []
  | request :: requests =>
    w.namesAsked n request ++ (w.serve request).1.namesAskedAll n requests

/-- The numbering that a request copies. -/
def source? : Request → Option NumberingId
  | .copyNumbering source => some source
  | _ => none

/-- The histories after one more request. The numbering that is asked has one more entry, and a
copy has the history of its source. -/
def note (w : World) (history : NumberingId → History) (request : Request) (n : NumberingId) :
    History :=
  match w.asked? request with
  | some (m, name) => if n = m then history n ++ [(name, (w.serve request).2)] else history n
  | none =>
    match source? request with
    | some source => if (w.serve request).2 = .numbering n then history source else history n
    | none => history n

/-- The histories after the requests. -/
def noteAll (w : World) (history : NumberingId → History) :
    List Request → NumberingId → History
  | [] => history
  | request :: requests => (w.serve request).1.noteAll (w.note history request) requests

/-- The histories of the numberings that come about by the requests. -/
def history (requests : List Request) : NumberingId → History :=
  World.empty.noteAll (fun _ => []) requests

/-- The names of the program that a numbering was asked for, each once, in the order of the first
request. -/
def askedNames (requests : List Request) (n : NumberingId) : List String :=
  userNames ((history requests n).map Prod.fst)

/-! ### What a request does to the numberings -/

/-- Only the request for a copy has a source. -/
theorem source?_eq_some {request : Request} {source : NumberingId}
    (h : source? request = some source) : request = .copyNumbering source := by
  cases request with
  | copyNumbering n => rw [Option.some.inj h]
  | _ => simp [source?] at h

/-- The numberings decide which numbering is found. -/
theorem numberingAt?_congr {w w' : World} (h : w'.numberings = w.numberings) (n : NumberingId) :
    w'.numberingAt? n = w.numberingAt? n := by
  rw [numberingAt?, h]
  rfl

/-- A class asks its own numbering, for the name of the method. -/
theorem askedByClass?_eq_some {w : World} {c : ClassId} {method name : String} {n : NumberingId}
    (h : w.askedByClass? c method = some (n, name)) : ∃ body numbering,
      w.classAt? c = some body ∧ w.numberingAt? n = some numbering
        ∧ body.numbering = n ∧ method = name := by
  obtain ⟨body, found, h⟩ := Option.bind_eq_some_iff.mp h
  obtain ⟨numbering, numbered, h⟩ := Option.bind_eq_some_iff.mp h
  obtain ⟨rfl, rfl⟩ := Prod.mk.inj (Option.some.inj h)
  exact ⟨body, numbering, found, numbered, rfl, rfl⟩

/-- A class asks its numbering as the program does. -/
theorem addMethod_of_asked {w : World} {c : ClassId} {method name : String} {n : NumberingId}
    (h : w.askedByClass? c method = some (n, name)) : ∃ numbering,
      w.numberingAt? n = some numbering
        ∧ (w.addMethod c method).2 = .slot (numbering.slotFor name)
        ∧ (w.addMethod c method).1.numberings
          = (w.changeNumbering n (·.allocate name)).numberings := by
  obtain ⟨body, numbering, found, numbered, rfl, rfl⟩ := askedByClass?_eq_some h
  refine ⟨numbering, numbered, ?_, ?_⟩
  · simp only [addMethod, found, numbered]
  · simp only [addMethod, found, numbered]
    rfl

/-- A class whose numbering exists asks it for every method. -/
theorem askedByClass?_of_found {w : World} {c : ClassId} {body : ClassBody} {numbering : Numbering}
    (found : w.classAt? c = some body) (numbered : w.numberingAt? body.numbering = some numbering)
    (method : String) : w.askedByClass? c method = some (body.numbering, method) := by
  rw [askedByClass?, found, Option.bind_eq_bind, Option.bind_some, numbered]
  rfl

/-- A request that asks a numbering is answered with the slot of the name, and hands it out there
and nowhere else. -/
theorem asked?_eq_some {w : World} {request : Request} {n : NumberingId} {name : String}
    (h : w.asked? request = some (n, name)) : ∃ numbering,
      w.numberingAt? n = some numbering
        ∧ (w.serve request).2 = .slot (numbering.slotFor name)
        ∧ (w.serve request).1.numberings
          = (w.changeNumbering n (·.allocate name)).numberings := by
  cases request with
  | allocate m asked =>
    obtain ⟨numbering, found, hpair⟩ := Option.map_eq_some_iff.mp h
    obtain ⟨rfl, rfl⟩ := Prod.mk.inj hpair
    refine ⟨numbering, found, ?_, ?_⟩ <;> rw [serve, allocate, found]
  | allocateCall m call =>
    obtain ⟨numbering, found, hpair⟩ := Option.map_eq_some_iff.mp h
    obtain ⟨rfl, rfl⟩ := Prod.mk.inj hpair
    refine ⟨numbering, found, ?_, ?_⟩ <;> rw [serve, allocate, found] <;> rfl
  | addMethod c method => exact addMethod_of_asked h
  | bindMethod c method label => exact addMethod_of_asked h
  | _ => simp [asked?] at h

/-- A request that neither asks a numbering nor copies one leaves all as they are and makes one at
most, which is fresh. It is opened, or it is that of a new class. -/
theorem numberings_of_not_asked {w : World} {request : Request} (h : w.asked? request = none)
    (hsource : source? request = none) :
    (w.serve request).1.numberings = w.numberings
      ∨ ∃ settings, (w.serve request).1.numberings
          = (w.makeNumbering (.fresh settings)).1.numberings
        ∧ (request = .openNumbering settings
          ∨ ∃ c body, (w.serve request).1.classAt? c = some body
            ∧ body.numbering = ⟨w.numberings.size⟩) := by
  have hroot : ∀ name g settings, (w.withRoot name g settings).classAt? ⟨w.classes.size⟩
      = some (.root name g ⟨w.numberings.size⟩) := by
    intro name g settings
    rw [classAt?_withRoot, if_pos rfl]
  have outcome := w.outcome_serve request
  generalize w.serve request = result at outcome ⊢
  cases outcome with
  | openedNumbering settings => exact .inr ⟨settings, rfl, .inl rfl⟩
  | copied _ => simp [source?] at hsource
  | allocated name found =>
    rw [asked?, found] at h
    exact nomatch h
  | allocatedCall call found =>
    rw [asked?, found] at h
    exact nomatch h
  | @root g globals name _ =>
    exact .inr ⟨globals.settings, rfl, .inr ⟨_, _, hroot name g globals.settings, rfl⟩⟩
  | defined method found numbered =>
    rw [asked?, askedByClass?_of_found found numbered] at h
    exact nomatch h
  | bound label defined =>
    rw [asked?] at h
    cases defined with
    | dangling _ => exact .inl rfl
    | defined method found numbered =>
      rw [askedByClass?_of_found found numbered] at h
      exact nomatch h
  | @declaredRoot _ declarations globals name _ _ _ =>
    exact .inr ⟨globals.settings, rfl,
      .inr ⟨_, _, hroot name declarations.globals globals.settings, rfl⟩⟩
  -- A child shares the numbering of its parent, and no other outcome is about a numbering.
  | _ => exact .inl rfl

/-- Nothing is copied where nothing is. -/
theorem serve_copyNumbering_of_absent {w : World} {source : NumberingId}
    (absent : w.numberingAt? source = none) :
    w.serve (.copyNumbering source) = (w, .dangling) := by
  rw [serve, copyNumbering, absent]

/-- A copy is found under the identity after all others. -/
theorem serve_copyNumbering {w : World} {source : NumberingId} {numbering : Numbering}
    (found : w.numberingAt? source = some numbering) :
    (w.serve (.copyNumbering source)).2 = .numbering ⟨w.numberings.size⟩
      ∧ ∀ n, (w.serve (.copyNumbering source)).1.numberingAt? n =
        if n.index = w.numberings.size then some numbering else w.numberingAt? n := by
  have hserve : w.serve (.copyNumbering source)
      = ((w.makeNumbering numbering).1, .numbering ⟨w.numberings.size⟩) := by
    rw [serve, copyNumbering, found]
    rfl
  rw [hserve]
  exact ⟨rfl, numberingAt?_makeNumbering w numbering⟩

/-! ### Histories are kept along a run -/

/-- Each numbering is what comes of its history, and what was never made has none. -/
structure Chronicle (w : World) (history : NumberingId → History) : Prop where
  recorded : ∀ {n numbering}, w.numberingAt? n = some numbering → numbering.Recorded (history n)
  absent : ∀ {n}, w.numberingAt? n = none → history n = []

namespace Chronicle

variable {w : World} {history : NumberingId → History}

/-- Before the first request, no numbering has a history. -/
theorem empty : Chronicle .empty fun _ => [] where
  recorded found := by simp [numberingAt?, World.empty] at found
  absent _ := rfl

/-- A numbering that is made at the end brings a history of its own. -/
theorem make (h : w.Chronicle history) {w' : World} {history' : NumberingId → History}
    {made : Numbering} {past : History} (hmade : made.Recorded past)
    (hlook : ∀ n, w'.numberingAt? n =
      if n.index = w.numberings.size then some made else w.numberingAt? n)
    (hnote : ∀ n, history' n = if n.index = w.numberings.size then past else history n) :
    w'.Chronicle history' := by
  refine ⟨?_, ?_⟩
  · intro n numbering found
    rw [hlook] at found
    rw [hnote]
    by_cases hlast : n.index = w.numberings.size
    · rw [if_pos hlast] at found ⊢
      obtain rfl : made = numbering := Option.some.inj found
      exact hmade
    · rw [if_neg hlast] at found ⊢
      exact h.recorded found
  · intro n habsent
    rw [hlook] at habsent
    by_cases hlast : n.index = w.numberings.size
    · rw [if_pos hlast] at habsent
      exact nomatch habsent
    · rw [if_neg hlast] at habsent
      rw [hnote, if_neg hlast]
      exact h.absent habsent

/-- A request that asks a numbering adds its name and answer to the history of this numbering. -/
theorem serve_of_asked (h : w.Chronicle history) {request : Request} {m : NumberingId}
    {name : String} (hasked : w.asked? request = some (m, name)) :
    (w.serve request).1.Chronicle (w.note history request) := by
  obtain ⟨asked, found, hanswer, hserved⟩ := asked?_eq_some hasked
  have hnote : ∀ n, w.note history request n =
      if n = m then history n ++ [(name, .slot (asked.slotFor name))] else history n := by
    intro n
    rw [note, hasked, ← hanswer]
  have hlook : ∀ n, (w.serve request).1.numberingAt? n =
      if n = m then (w.numberingAt? n).map (·.allocate name) else w.numberingAt? n := by
    intro n
    rw [numberingAt?_congr hserved, numberingAt?_changeNumbering]
  -- Only the numbering that is asked changes, and only its history goes on.
  refine ⟨?_, ?_⟩
  · intro n numbering hn
    rw [hlook] at hn
    rw [hnote]
    by_cases heq : n = m
    · rw [if_pos heq, heq, found] at hn
      obtain rfl : asked.allocate name = numbering := Option.some.inj hn
      rw [if_pos heq, heq]
      exact (h.recorded found).ask name
    · rw [if_neg heq] at hn
      rw [if_neg heq]
      exact h.recorded hn
  · intro n hn
    rw [hlook] at hn
    have heq : n ≠ m := by
      rintro rfl
      rw [if_pos rfl, found] at hn
      exact nomatch hn
    rw [if_neg heq] at hn
    rw [hnote, if_neg heq]
    exact h.absent hn

/-- A copy begins with the history of its source. -/
theorem serve_copyNumbering (h : w.Chronicle history) (source : NumberingId) :
    (w.serve (.copyNumbering source)).1.Chronicle (w.note history (.copyNumbering source)) := by
  cases found : w.numberingAt? source with
  | none =>
    have hserve := serve_copyNumbering_of_absent found
    have hnote : w.note history (.copyNumbering source) = history := by
      funext n
      -- The answer names no copy, so no history is taken over.
      show (if (w.serve (.copyNumbering source)).2 = .numbering n then history source
        else history n) = history n
      rw [hserve, if_neg Answer.noConfusion]
    rw [hserve, hnote]
    exact h
  | some copied =>
    obtain ⟨hanswer, hlook⟩ := World.serve_copyNumbering found
    have hnote : ∀ n, w.note history (.copyNumbering source) n =
        if n.index = w.numberings.size then history source else history n := by
      rintro ⟨i⟩
      show (if (w.serve (.copyNumbering source)).2 = .numbering ⟨i⟩ then history source
        else history ⟨i⟩) = _
      rw [hanswer]
      simp [eq_comm]
    exact h.make (h.recorded found) hlook hnote

/-- Any other request leaves all histories as they are. -/
theorem serve_of_not_asked (h : w.Chronicle history) {request : Request}
    (hasked : w.asked? request = none) (hsource : source? request = none) :
    (w.serve request).1.Chronicle (w.note history request) := by
  have hnote : w.note history request = history := by
    funext n
    rw [note, hasked, hsource]
  rw [hnote]
  rcases numberings_of_not_asked hasked hsource with hsame | ⟨settings, hfresh, -⟩
  · refine ⟨?_, ?_⟩
    · intro n numbering found
      rw [numberingAt?_congr hsame] at found
      exact h.recorded found
    · intro n habsent
      rw [numberingAt?_congr hsame] at habsent
      exact h.absent habsent
  · refine h.make (.fresh settings) ?_ ?_
    · intro n
      rw [numberingAt?_congr hfresh, numberingAt?_makeNumbering]
    · intro n
      split
      · -- Nothing was asked of a numbering before it is made.
        rename_i hlast
        exact h.absent (Store.at?_eq_none_iff.mpr (Nat.le_of_eq hlast.symm))
      · rfl

/-- So every request is taken into the histories. -/
theorem serve (h : w.Chronicle history) (request : Request) :
    (w.serve request).1.Chronicle (w.note history request) := by
  cases hasked : w.asked? request with
  | some asked => exact h.serve_of_asked hasked
  | none =>
    cases hsource : source? request with
    | none => exact h.serve_of_not_asked hasked hsource
    | some source =>
      obtain rfl := source?_eq_some hsource
      exact h.serve_copyNumbering source

/-- And so is a run of requests. -/
theorem noteAll (h : w.Chronicle history) (requests : List Request) :
    (w.run requests).1.Chronicle (w.noteAll history requests) := by
  induction requests generalizing w history with
  | nil => exact h
  | cons request requests ih => exact ih (h.serve request)

end Chronicle

/-- The histories of a run are those of the world that it leads to. -/
theorem chronicle_history (requests : List Request) :
    (World.empty.run requests).1.Chronicle (history requests) :=
  Chronicle.empty.noteAll requests

/-! ### A numbering changes only when it is asked -/

/-- A request makes of a numbering what asking for its names makes of it. -/
theorem numberingAt?_serve {w : World} {n : NumberingId} {numbering : Numbering}
    (found : w.numberingAt? n = some numbering) (request : Request) :
    (w.serve request).1.numberingAt? n
      = some ((w.namesAsked n request).foldl Numbering.allocate numbering) := by
  have hold : n.index ≠ w.numberings.size := Store.index_ne_size found
  rw [namesAsked]
  cases hasked : w.asked? request with
  | some asked =>
    obtain ⟨m, name⟩ := asked
    obtain ⟨_, _, _, hserved⟩ := asked?_eq_some hasked
    rw [numberingAt?_congr hserved, numberingAt?_changeNumbering, found]
    dsimp only
    split <;> rfl
  | none =>
    -- What is made comes under an identity of its own, so nothing happens to this numbering.
    show (w.serve request).1.numberingAt? n = some numbering
    cases hsource : source? request with
    | none =>
      rcases numberings_of_not_asked hasked hsource with hsame | ⟨settings, hfresh, -⟩
      · rw [numberingAt?_congr hsame]
        exact found
      · rw [numberingAt?_congr hfresh, numberingAt?_makeNumbering, if_neg hold]
        exact found
    | some source =>
      obtain rfl := source?_eq_some hsource
      cases hm : w.numberingAt? source with
      | none =>
        rw [serve_copyNumbering_of_absent hm]
        exact found
      | some copied =>
        rw [(serve_copyNumbering hm).2, if_neg hold]
        exact found

/-- After a run, a numbering is what the requests to itself have made of it. -/
theorem numberingAt?_run {w : World} {n : NumberingId} {numbering : Numbering}
    (found : w.numberingAt? n = some numbering) (requests : List Request) :
    (w.run requests).1.numberingAt? n
      = some ((w.namesAskedAll n requests).foldl Numbering.allocate numbering) := by
  induction requests generalizing w numbering with
  | nil => exact found
  | cons request requests ih =>
    rw [namesAskedAll, List.foldl_append]
    exact ih (numberingAt?_serve found request)

/-- A request adds to the history of a numbering the names that it asks for. -/
theorem map_fst_note {w : World} {n : NumberingId} {numbering : Numbering}
    (found : w.numberingAt? n = some numbering) (history : NumberingId → History)
    (request : Request) : (w.note history request n).map Prod.fst
      = (history n).map Prod.fst ++ w.namesAsked n request := by
  have hold : n.index ≠ w.numberings.size := Store.index_ne_size found
  rw [note, namesAsked]
  cases w.asked? request with
  | some asked =>
    dsimp only
    split <;> simp
  | none =>
    cases hsource : source? request with
    | none => simp
    | some source =>
      obtain rfl := source?_eq_some hsource
      -- The copy takes over a history, but the numbering was there before and is not the copy.
      have hother : (w.serve (.copyNumbering source)).2 ≠ .numbering n := by
        cases hm : w.numberingAt? source with
        | none =>
          rw [serve_copyNumbering_of_absent hm]
          exact Answer.noConfusion
        | some copied =>
          rw [(serve_copyNumbering hm).1]
          intro h
          obtain rfl := Answer.numbering.inj h
          exact hold rfl
      simp [hother]

/-- So does a run of requests. -/
theorem map_fst_noteAll {w : World} {n : NumberingId} {numbering : Numbering}
    (found : w.numberingAt? n = some numbering) (history : NumberingId → History)
    (requests : List Request) : (w.noteAll history requests n).map Prod.fst
      = (history n).map Prod.fst ++ w.namesAskedAll n requests := by
  induction requests generalizing w history numbering with
  | nil => simp [noteAll, namesAskedAll]
  | cons request requests ih =>
    rw [noteAll, ih (numberingAt?_serve found request), map_fst_note found, namesAskedAll,
      List.append_assoc]

/-- Histories of longer runs are continued from those of shorter ones. -/
theorem noteAll_append (w : World) (history : NumberingId → History)
    (requests more : List Request) : w.noteAll history (requests ++ more)
      = (w.run requests).1.noteAll (w.noteAll history requests) more := by
  induction requests generalizing w history with
  | nil => rfl
  | cons request requests ih => exact ih _ _

/-! ### No history is longer than the run -/

/-- One request is one more entry at most. -/
theorem length_note_le (w : World) {history : NumberingId → History} {k : Nat}
    (h : ∀ n, (history n).length ≤ k) (request : Request) (n : NumberingId) :
    (w.note history request n).length ≤ k + 1 := by
  have hkept : ∀ m, (history m).length ≤ k + 1 := fun m => Nat.le_succ_of_le (h m)
  rw [note]
  cases w.asked? request with
  | some asked =>
    dsimp only
    split
    · rw [List.length_append, List.length_singleton]
      exact Nat.succ_le_succ (h n)
    · exact hkept n
  | none =>
    cases source? request with
    | none => exact hkept n
    | some source =>
      dsimp only
      split
      · exact hkept source
      · exact hkept n

/-- A run adds no more entries than it has requests. -/
theorem length_noteAll_le (w : World) {history : NumberingId → History} {k : Nat}
    (h : ∀ n, (history n).length ≤ k) (requests : List Request) (n : NumberingId) :
    (w.noteAll history requests n).length ≤ k + requests.length := by
  induction requests generalizing w history k with
  | nil => exact h n
  | cons request requests ih =>
    have hrest := ih (w.serve request).1 (w.length_note_le h request)
    rw [noteAll, List.length_cons]
    omega

/-- A run with fewer requests than there are words, but for two, leaves numberings that can be
counted. -/
theorem counted_of_length (requests : List Request) {n : NumberingId} {numbering : Numbering}
    (found : (after requests).numberingAt? n = some numbering)
    (short : requests.length + 2 < UInt64.size) : numbering.Counted := by
  have hasked := length_userNames_le ((history requests n).map Prod.fst)
  have hentries : (history requests n).length ≤ 0 + requests.length :=
    World.empty.length_noteAll_le (fun _ => Nat.le_refl _) requests n
  rw [List.length_map] at hasked
  unfold Numbering.Counted
  rw [((chronicle_history requests).recorded found).lists.size_slots]
  omega

/-! ### Where a numbering has its header from -/

/-- The number of header slots that a numbering was made with. It is that of the settings which it
was opened with, or that of its source if it is a copy. The numbering of a class has that of the
settings of the module level around the class. -/
inductive MadeWith : List Request → NumberingId → UInt64 → Prop where
  | opened {requests : List Request} {n : NumberingId} (settings : Settings)
      (answer : ((after requests).serve (.openNumbering settings)).2 = .numbering n) :
      MadeWith (requests ++ [.openNumbering settings]) n settings.headerSlots
  | copied {requests : List Request} {source n : NumberingId} {header : UInt64}
      (answer : ((after requests).serve (.copyNumbering source)).2 = .numbering n)
      (made : MadeWith requests source header) :
      MadeWith (requests ++ [.copyNumbering source]) n header
  | ofClass {requests : List Request} {c : ClassId} {body : ClassBody} {globals : Globals}
      (found : (after requests).classAt? c = some body)
      (home : (after requests).globalsAt? body.globals = some globals) :
      MadeWith requests body.numbering globals.settings.headerSlots
  | later {requests : List Request} {n : NumberingId} {header : UInt64}
      (made : MadeWith requests n header) (more : List Request) :
      MadeWith (requests ++ more) n header

/-- A run of requests and more requests is the run of all of them. -/
theorem run_append (w : World) (requests more : List Request) :
    (w.run (requests ++ more)).1 = ((w.run requests).1.run more).1 := by
  induction requests generalizing w with
  | nil => rfl
  | cons request requests ih => exact ih _

/-- The world after one more request. -/
theorem after_concat (requests : List Request) (request : Request) :
    after (requests ++ [request]) = ((after requests).serve request).1 :=
  run_append .empty requests [request]

/-- Requests for slots move no header. -/
theorem header_foldl_allocate (numbering : Numbering) (names : List String) :
    (names.foldl Numbering.allocate numbering).header = numbering.header := by
  induction names generalizing numbering with
  | nil => rfl
  | cons name names ih =>
    rw [List.foldl_cons, ih, Numbering.header_allocate]

/-- A numbering that is there has the header it was made with. -/
theorem header_of_madeWith {requests : List Request} {n : NumberingId} {header : UInt64}
    (made : MadeWith requests n header) :
    ((after requests).numberingAt? n).map (·.header) = some header := by
  induction made with
  | @opened requests n settings answer =>
    obtain rfl : ⟨(after requests).numberings.size⟩ = n := Answer.numbering.inj answer
    have hmade := numberingAt?_makeNumbering (after requests) (.fresh settings)
      ⟨(after requests).numberings.size⟩
    rw [if_pos rfl] at hmade
    rw [after_concat]
    exact congrArg (Option.map _) hmade
  | @copied requests source n header answer _ ih =>
    obtain ⟨numbering, found, hheader⟩ := Option.map_eq_some_iff.mp ih
    obtain ⟨hanswer, hlook⟩ := serve_copyNumbering found
    obtain rfl := Answer.numbering.inj (hanswer.symm.trans answer)
    rw [after_concat, hlook, if_pos rfl, Option.map_some, hheader]
  | @ofClass requests c body globals found home =>
    have reachable : (after requests).Reachable := Reachable.empty.run requests
    obtain ⟨globals', numbering, home', numbered, hheader⟩ := reachable.built.grounded.home found
    obtain rfl := Option.some.inj (home.symm.trans home')
    rw [numbered, Option.map_some, hheader]
  | @later requests n header _ more ih =>
    obtain ⟨numbering, found, hheader⟩ := Option.map_eq_some_iff.mp ih
    rw [after, run_append, numberingAt?_run found more, Option.map_some, header_foldl_allocate,
      hheader]

/-- A numbering that was not there before the request is opened, copied or that of a new class. -/
theorem numbering_made_by {w : World} {request : Request} {n : NumberingId}
    {numbering : Numbering} (absent : w.numberingAt? n = none)
    (found : (w.serve request).1.numberingAt? n = some numbering) :
    (∃ settings, request = .openNumbering settings ∧ numbering = .fresh settings
        ∧ (w.serve request).2 = .numbering n)
      ∨ (∃ source, request = .copyNumbering source ∧ w.numberingAt? source = some numbering
        ∧ (w.serve request).2 = .numbering n)
      ∨ ∃ c body, (w.serve request).1.classAt? c = some body ∧ body.numbering = n := by
  cases hasked : w.asked? request with
  | some asked =>
    -- A request that asks a numbering makes none.
    obtain ⟨_, _, _, hserved⟩ := asked?_eq_some hasked
    rw [numberingAt?_congr hserved, numberingAt?_changeNumbering, absent] at found
    split at found <;> exact nomatch found
  | none =>
    cases hsource : source? request with
    | none =>
      rcases numberings_of_not_asked hasked hsource with hsame | ⟨settings, hfresh, hmade⟩
      · rw [numberingAt?_congr hsame, absent] at found
        exact nomatch found
      · rw [numberingAt?_congr hfresh, numberingAt?_makeNumbering, absent] at found
        split at found
        · rename_i hlast
          obtain rfl : n = ⟨w.numberings.size⟩ := congrArg Identity.mk hlast
          rcases hmade with rfl | ⟨c, body, hbody, hnumbering⟩
          · exact .inl ⟨settings, rfl, (Option.some.inj found).symm, rfl⟩
          · exact .inr (.inr ⟨c, body, hbody, hnumbering⟩)
        · exact nomatch found
    | some source =>
      obtain rfl := source?_eq_some hsource
      cases hm : w.numberingAt? source with
      | none =>
        rw [serve_copyNumbering_of_absent hm, absent] at found
        exact nomatch found
      | some copied =>
        obtain ⟨hanswer, hlook⟩ := serve_copyNumbering hm
        rw [hlook, absent] at found
        split at found
        · rename_i hlast
          obtain rfl : n = ⟨w.numberings.size⟩ := congrArg Identity.mk hlast
          exact .inr (.inl ⟨source, rfl, hm.trans found, hanswer⟩)
        · exact nomatch found

/-- Every numbering was made with its header. -/
theorem madeWith_header {requests : List Request} {n : NumberingId} {numbering : Numbering}
    (found : (after requests).numberingAt? n = some numbering) :
    MadeWith requests n numbering.header := by
  -- The induction is from behind: the last request made the numbering, or it was there before.
  induction requests using List.reverseRecOn generalizing n numbering with
  | nil => simp [after, run, numberingAt?, World.empty] at found
  | append_singleton requests request ih =>
    have found' := after_concat requests request ▸ found
    cases hold : (after requests).numberingAt? n with
    | some old =>
      have hheader : numbering.header = old.header := by
        rw [numberingAt?_serve hold request] at found'
        rw [← Option.some.inj found', header_foldl_allocate]
      rw [hheader]
      exact .later (ih hold) [request]
    | none =>
      rcases numbering_made_by hold found' with ⟨settings, rfl, rfl, hanswer⟩
        | ⟨source, rfl, hsource, hanswer⟩ | ⟨c, body, hbody, rfl⟩
      · exact .opened settings hanswer
      · exact .copied hanswer (ih hsource)
      · have hclass := (after_concat requests request).symm ▸ hbody
        have reachable : (after (requests ++ [request])).Reachable := Reachable.empty.run _
        obtain ⟨globals, numbering', home, numbered, hheader⟩ :=
          reachable.built.grounded.home hclass
        obtain rfl : numbering = numbering' := Option.some.inj (found.symm.trans numbered)
        rw [hheader]
        exact .ofClass hclass home

/-- Listed by slot, the names have the slots that they are looked up with. -/
theorem mem_entries_iff {numbering : Numbering} {name : String} {slot : UInt64} :
    (name, slot) ∈ numbering.entries ↔ numbering.slot? name = some slot := by
  rw [Numbering.entries, List.mem_mergeSort]
  exact Registry.mem_rows_iff (name, slot)

/-- Asked for the slot of a name, a numbering answers with the one that it lists. -/
theorem serve_slotOf_eq_slot_iff {w : World} {n : NumberingId} {numbering : Numbering}
    (found : w.numberingAt? n = some numbering) {name : String} {slot : UInt64} :
    w.serve (.slotOf n name) = (w, .slot slot) ↔ (name, slot) ∈ numbering.entries := by
  rw [mem_entries_iff, serve_slotOf found, Numbering.demand]
  cases numbering.slot? name <;> simp [Answer.ofSlot]

/-- It refuses a name that has none. -/
theorem serve_slotOf_of_not_contains {w : World} {n : NumberingId} {numbering : Numbering}
    (found : w.numberingAt? n = some numbering) {name : String}
    (absent : numbering.contains name = false) :
    w.serve (.slotOf n name) = (w, .refused (.unallocatedSlot name)) := by
  have hnone : numbering.slot? name = none := by
    simpa [Numbering.contains, Registry.contains, Numbering.slot?] using absent
  rw [serve_slotOf found, Numbering.demand, hnone]
  rfl

/-- A copy is a new numbering, which has what its source has and the same history. -/
theorem exists_copy {requests : List Request} {n : NumberingId} {numbering : Numbering}
    (found : (after requests).numberingAt? n = some numbering) :
    ∃ copy, ((after requests).serve (.copyNumbering n)).2 = .numbering copy
      ∧ (after requests).numberingAt? copy = none
      ∧ ((after requests).serve (.copyNumbering n)).1.numberingAt? copy = some numbering
      ∧ ((after requests).serve (.copyNumbering n)).1.numberingAt? n = some numbering
      ∧ history (requests ++ [.copyNumbering n]) copy = history requests n := by
  have hold : n.index ≠ (after requests).numberings.size := Store.index_ne_size found
  obtain ⟨hanswer, hlook⟩ := serve_copyNumbering found
  refine ⟨⟨(after requests).numberings.size⟩, hanswer, ?_, ?_, ?_, ?_⟩
  · exact Store.at?_eq_none_iff.mpr (Nat.le_refl _)
  · rw [hlook, if_pos rfl]
  · rw [hlook, if_neg hold]
    exact found
  · rw [history, noteAll_append]
    show (if ((after requests).serve (.copyNumbering n)).2
      = .numbering ⟨(after requests).numberings.size⟩ then history requests n else _)
        = history requests n
    rw [hanswer, if_pos rfl]

/-- A numbering is exactly the history of the requests to it, up to the machine's arithmetic.

Its header is the one it was made with. The names that have a slot are `new`, `__send__` and then
the names of the program, each once, in the order of the first request. Their slots follow each
other behind the header, with one left free before the names of the program, and the next slot is
the one behind. The sums are sums of words. As numbers they are what they say exactly if the header,
the free slot and all slots that were handed out are fewer than there are words. Listed by slot, the
names are the same in whatever order they are taken, if they can be counted, and they can be after
every run of fewer requests than there are words.

Every request was answered with the slot that its name has. The numbering contains the names of the
history and no others. Asked for a slot that must be there, for a name or for a call with it, it
answers with the one that the name has, or else refuses, and nothing changes.

Whatever is asked next, the numbering is what the requests to itself make of it, and its history
goes on with their names. A copy is a numbering that was not there before. It has the slots and the
history of its source, which stays as it is. -/
theorem numbering_of_history (requests : List Request) {n : NumberingId} {numbering : Numbering}
    (found : (after requests).numberingAt? n = some numbering) :
    (∀ header, MadeWith requests n header ↔ header = numbering.header)
    ∧ numbering.slots.rows = (Numbering.placed (askedNames requests n)).map
        (fun row => (row.1, Numbering.slotAt numbering.header row.2))
    ∧ numbering.next = Numbering.slotAt numbering.header ((askedNames requests n).length + 3)
    ∧ ((numbering.entries.map (fun row => (row.1, row.2.toNat))
            = (constructorName, numbering.header.toNat)
              :: (senderName, numbering.header.toNat + 1)
              :: (askedNames requests n).zipIdx (numbering.header.toNat + 3)
          ∧ numbering.next.toNat = numbering.header.toNat + 3 + (askedNames requests n).length)
        ↔ numbering.header.toNat + 3 + (askedNames requests n).length < UInt64.size)
    ∧ (numbering.Counted → ∀ listed : List (String × UInt64),
        listed.Perm numbering.slots.rows →
        listed.mergeSort (fun a b => decide (a.2 ≤ b.2)) = numbering.entries)
    ∧ (requests.length + 2 < UInt64.size → numbering.Counted)
    ∧ (∀ entry ∈ history requests n, ∃ slot, entry.2 = .slot slot
        ∧ (entry.1, slot) ∈ numbering.entries)
    ∧ (∀ name, numbering.contains name = true ↔
        name = constructorName ∨ name = senderName ∨ name ∈ askedNames requests n)
    ∧ (∀ name slot, (after requests).serve (.slotOf n name) = (after requests, .slot slot) ↔
        (name, slot) ∈ numbering.entries)
    ∧ (∀ name, numbering.contains name = false →
        (after requests).serve (.slotOf n name)
          = (after requests, .refused (.unallocatedSlot name)))
    ∧ (∀ call : CallSite, (after requests).serve (.slotOfCall n call)
        = (after requests).serve (.slotOf n call.method))
    ∧ (∀ more, ((after requests).run more).1.numberingAt? n
          = some (((after requests).namesAskedAll n more).foldl Numbering.allocate numbering)
        ∧ (history (requests ++ more) n).map Prod.fst = (history requests n).map Prod.fst
          ++ (after requests).namesAskedAll n more)
    ∧ ∃ copy, ((after requests).serve (.copyNumbering n)).2 = .numbering copy
        ∧ (after requests).numberingAt? copy = none
        ∧ ((after requests).serve (.copyNumbering n)).1.numberingAt? copy = some numbering
        ∧ ((after requests).serve (.copyNumbering n)).1.numberingAt? n = some numbering
        ∧ history (requests ++ [.copyNumbering n]) copy = history requests n := by
  obtain ⟨lists, answered⟩ := (chronicle_history requests).recorded found
  change numbering.Lists (askedNames requests n) at lists
  refine ⟨?_, lists.rows, lists.next, lists.numbers_iff,
    fun counted listed => lists.sorted_rows counted, counted_of_length requests found, ?_,
    fun name => lists.contains_iff, fun name slot => serve_slotOf_eq_slot_iff found,
    fun name => serve_slotOf_of_not_contains found, ?_, ?_, exists_copy found⟩
  · intro header
    constructor
    · intro made
      have hheader := header_of_madeWith made
      rw [found] at hheader
      exact (Option.some.inj hheader).symm
    · rintro rfl
      exact madeWith_header found
  · intro entry hentry
    obtain ⟨slot, hslot, hnumbered⟩ := answered entry hentry
    exact ⟨slot, hslot, mem_entries_iff.mpr hnumbered⟩
  · intro call
    rw [serve_slotOfCall found, serve_slotOf found]
  · intro more
    refine ⟨numberingAt?_run found more, ?_⟩
    rw [history, noteAll_append]
    exact map_fst_noteAll found (history requests) more

/-- A numbering behind a header of two slots is asked through a class and for a call and then
copied. Both are asked again, the first through a child of the class. -/
def forkedNumbering : List Request := [
  .openGlobals { headerSlots := 2 }, .addRoot "Point" ⟨0⟩, .addMethod ⟨0⟩ "move",
  .allocateCall ⟨0⟩ { receiver := .super, method := "draw", extra := ["line 3"] },
  .copyNumbering ⟨0⟩, .addChild "Pixel" ⟨0⟩, .allocate ⟨1⟩ "fill",
  .bindMethod ⟨1⟩ "paint" "Pixel.paint", .allocate ⟨1⟩ "move", .allocate ⟨1⟩ "new"]

/-- The numbering and its copy share the header and the names that were asked for before the
copying. -/
theorem numbering_of_history_forkedNumbering :
    askedNames forkedNumbering ⟨0⟩ = ["move", "draw", "paint"]
    ∧ askedNames forkedNumbering ⟨1⟩ = ["move", "draw", "fill"]
    ∧ MadeWith forkedNumbering ⟨1⟩ 2
    ∧ (∃ numbering, (after forkedNumbering).numberingAt? ⟨1⟩ = some numbering
      ∧ numbering.entries.map (fun row => (row.1, row.2.toNat))
        = [("new", 2), ("__send__", 3), ("move", 5), ("draw", 6), ("fill", 7)]
      ∧ numbering.next.toNat = 8)
    ∧ (after forkedNumbering).serve (.slotOf ⟨1⟩ "paint")
      = (after forkedNumbering, .refused (.unallocatedSlot "paint")) := by
  have hnames : askedNames forkedNumbering ⟨1⟩ = ["move", "draw", "fill"] := by decide +kernel
  have hheader : ((after forkedNumbering).numberingAt? ⟨1⟩).map
      (fun numbering => (numbering.header, numbering.contains "paint")) = some (2, false) := by
    decide +kernel
  obtain ⟨numbering, found, hheader⟩ := Option.map_eq_some_iff.mp hheader
  obtain ⟨hheader, habsent⟩ := Prod.mk.inj hheader
  obtain ⟨hmade, -, -, hnumbers, -, -, -, -, -, hrefused, -⟩ :=
    numbering_of_history forkedNumbering found
  rw [hnames, hheader] at hnumbers
  obtain ⟨hentries, hnext⟩ := hnumbers.mpr (by decide)
  exact ⟨by decide +kernel, hnames, (hmade 2).mpr hheader.symm,
    ⟨numbering, found, hentries, hnext⟩, hrefused "paint" habsent⟩

/-- The slots of a numbering need not follow each other behind its header. Behind the last word
there is no room: the first slot is the header itself, and the second is the lowest of all. -/
theorem not_slots_behind_header :
    ¬ ∀ (settings : Settings) (numbering : Numbering),
      (after [.openNumbering settings]).numberingAt? ⟨0⟩ = some numbering →
      numbering.entries.map (fun row => (row.1, row.2.toNat))
          = [(constructorName, settings.headerSlots.toNat),
            (senderName, settings.headerSlots.toNat + 1)]
        ∧ numbering.next.toNat = settings.headerSlots.toNat + 3 := by
  intro h
  have hnext := (h { headerSlots := 18446744073709551615 } _ rfl).2
  exact absurd hnext (by decide)

end World

end ScopeLayout
