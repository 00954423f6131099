import Mathlib.Logic.Function.Basic
import ShaderBuild.Proofs.Device.Apart
import ShaderBuild.Proofs.Since

/-!
# Lifetimes of Handles

From when to when a handle stands for a program, read off the calls on a device.

A call hands a handle out, and from then on the handle is live until a call deletes
it. It may be handed out again after that, which is up to the device; all it owes is
not to hand out a handle that is live.

Who has the handles is told by names: every name has the handle of the program under
it, if there is one. What is done in a workspace then comes to one of two things. Either
all names keep their handles and nothing is handed out or deleted, or one name gets
another handle, or none, and the one it had is deleted (`Turnover`). If the names have
all live handles before, each by one name only, then they have them afterwards
(`Books.turnover`), and it can be told from them which handle was deleted.

## Main definitions

* `Throughout`: Each of some calls is as it should be after those before it.
* `Call.handedOut?`: The handle that a call hands out.
* `Live`: A handle has been handed out and not deleted since.
* `Call.Fresh`: A call hands out no live handle.
* `Call.NamesLive`: A call names no program but by a live handle.
* `Turnover`: What becomes of the handles over some calls.
* `Books`: The names have all live handles, each by one name only.

## Theorems

* `throughout_append`: Calls made in two parts.
* `live_concat`: What one call does to the live handles.
* `fresh_of_nodup`: What is handed out only once is not live when it is.
* `Books.turnover`: The names have all live handles still.
* `Books.namesLive`: Programs are named by live handles only.
* `Books.deleted`: A handle is deleted once if it is given up, and otherwise not.
-/

namespace ShaderBuild

/-- Each of some calls is as it should be after the calls before it. -/
def Throughout (P : List Call → Call → Prop) (past calls : List Call) : Prop :=
  ∀ front call back, calls = front ++ call :: back → P (past ++ front) call

section Throughout

variable {P : List Call → Call → Prop} {past first second : List Call} {call : Call}

theorem throughout_nil : Throughout P past [] :=
  fun _ _ _ split => absurd split.symm (List.append_ne_nil_of_right_ne_nil _ (List.cons_ne_nil _ _))

/-- Calls made in two parts. -/
theorem throughout_append :
    Throughout P past (first ++ second) ↔
      Throughout P past first ∧ Throughout P (past ++ first) second := by
  constructor
  · intro whole
    refine ⟨fun front call back split => ?_, fun front call back split => ?_⟩
    · exact whole front call (back ++ second) (by rw [split, List.append_assoc]; rfl)
    · rw [List.append_assoc]
      exact whole (first ++ front) call back (by rw [split, List.append_assoc])
  · rintro ⟨early, late⟩ front call back split
    -- The call is in the first part, or all of that is before it.
    rcases List.append_eq_append_iff.mp split with ⟨between, rfl, rest⟩ | ⟨between, rfl, rest⟩
    · rw [← List.append_assoc]
      exact late between call back rest
    · cases between with
      | nil =>
          have next := late [] call back rest.symm
          rwa [List.append_nil, ← List.append_assoc, List.append_nil] at next
      | cons next between =>
          obtain ⟨rfl, -⟩ := List.cons.inj rest
          exact early front call between rfl

theorem throughout_singleton : Throughout P past [call] ↔ P past call := by
  constructor
  · intro one
    exact List.append_nil past ▸ one [] call [] rfl
  · intro holds front other back split
    rcases List.append_eq_singleton_iff.mp split.symm with ⟨rfl, last⟩ | ⟨-, last⟩
    · obtain ⟨rfl, -⟩ := List.cons.inj last
      rwa [List.append_nil]
    · cases last

end Throughout

/-- The handle that a call hands out. -/
def Call.handedOut? : Call → Option Handle
  | ⟨.create, answer⟩ => answer.reply.toOption
  | _ => none

/-- A handle has been handed out by some call, and by none since has it been deleted. -/
def Live (h : Handle) (calls : List Call) : Prop :=
  ∃ front call back, calls = front ++ call :: back ∧ call.handedOut? = some h ∧
    ∀ later ∈ back, later.request ≠ .delete h

/-- The call hands out no live handle. -/
def Call.Fresh (past : List Call) (call : Call) : Prop :=
  ∀ h, call.handedOut? = some h → ¬ Live h past

/-- The call names no program but by a live handle. -/
def Call.NamesLive (past : List Call) (call : Call) : Prop :=
  ∀ h, call.request.program? = some h → Live h past

section Live

variable {past calls : List Call} {call : Call} {h k : Handle}

theorem Call.request_of_handedOut (out : call.handedOut? = some h) : call.request = .create := by
  rcases call with ⟨request, answer⟩
  cases request with
  | create => rfl
  | _ => cases out

theorem not_live_nil : ¬ Live h [] :=
  not_since_nil

/-- What one call does to the live handles: it hands out one, or deletes one, or leaves
    them as they are. -/
theorem live_concat :
    Live h (past ++ [call]) ↔
      call.handedOut? = some h ∨ Live h past ∧ call.request ≠ .delete h :=
  since_concat

/-- Calls that hand out nothing and delete nothing leave the live handles as they are. -/
theorem live_append (quiet : ∀ call ∈ calls, call.handedOut? = none ∧ call.request ≠ .delete h) :
    Live h (past ++ calls) ↔ Live h past := by
  have silent : ¬ Live h calls := by
    intro live
    obtain ⟨call, made, out⟩ := Since.exists_mem live
    rw [(quiet call made).1] at out
    cases out
  have kept : ∀ call ∈ calls, call.request ≠ .delete h := fun call made => (quiet call made).2
  exact since_append.trans ((or_iff_right silent).trans (and_iff_left kept))

/-- A handle that is live has been handed out. -/
theorem Live.mem (live : Live h calls) : h ∈ calls.filterMap Call.handedOut? := by
  obtain ⟨call, made, out⟩ := Since.exists_mem live
  exact List.mem_filterMap.mpr ⟨call, made, out⟩

/-- What is handed out only once is not live when it is. -/
theorem fresh_of_nodup (once : (calls.filterMap Call.handedOut?).Nodup) :
    Throughout Call.Fresh [] calls := by
  rintro front call back rfl h out live
  rw [List.filterMap_append, List.filterMap_cons_some out, List.nodup_append] at once
  exact once.2.2 h live.mem h List.mem_cons_self rfl

end Live

/-- Some calls hand out one handle, or none. -/
inductive HandsOut : Option Handle → List Call → Prop where
  | nothing : HandsOut none []
  | one {call : Call} {h : Handle} (out : call.handedOut? = some h) : HandsOut (some h) [call]

/-- Some calls delete one handle, or none. -/
inductive Deletes : Option Handle → List Call → Prop where
  | nothing : Deletes none []
  | one {call : Call} {h : Handle} (gone : call.request = .delete h) : Deletes (some h) [call]

/-- What becomes of the handles that names have over some calls. -/
inductive Turnover (before after : String → Option Handle) : List Call → Prop where
  /-- The names keep their handles, and by no others are programs named. -/
  | kept {calls : List Call} (same : after = before)
      (quiet : ∀ call ∈ calls, call.handedOut? = none ∧ (∀ h, call.request ≠ .delete h) ∧
        ∀ h, call.request.program? = some h → ∃ name, before name = some h) :
    Turnover before after calls
  /-- A name gets what is handed out, and what it had before is deleted. -/
  | renewed {born : Option Handle} {created deleted : List Call} (name : String)
      (handsOut : HandsOut born created) (deletes : Deletes (before name) deleted)
      (next : after = Function.update before name born) :
    Turnover before after (created ++ deleted)

/-- The names have all handles that are live after some calls, each by one name only. -/
structure Books (names : String → Option Handle) (past : List Call) : Prop where
  live : ∀ h, Live h past ↔ ∃ name, names name = some h
  distinct : ∀ m n h, names m = some h → names n = some h → m = n

namespace Books

variable {before after : String → Option Handle} {past calls : List Call} {h : Handle}

theorem empty {names : String → Option Handle} (none : ∀ name, names name = none) :
    Books names [] where
  live h := by simp only [not_live_nil, none, reduceCtorEq, exists_false]
  distinct m n h has := by rw [none] at has; cases has

/-- A name that gets another handle gives up its own, as no other name has it. -/
theorem owned_update (books : Books before past) (name : String) (born : Option Handle) :
    (∃ other, Function.update before name born other = some h) ↔
      born = some h ∨ (∃ other, before other = some h) ∧ before name ≠ some h := by
  -- No other name has what the name gives up, so only that handle is lost.
  constructor
  · rintro ⟨other, has⟩
    by_cases same : other = name
    · rw [same, Function.update_self] at has
      exact Or.inl has
    · rw [Function.update_of_ne same] at has
      exact Or.inr ⟨⟨other, has⟩, fun own => same (books.distinct other name h has own)⟩
  · rintro (out | ⟨⟨other, has⟩, lost⟩)
    · exact ⟨name, by rw [Function.update_self, out]⟩
    · have same : other ≠ name := fun same => lost (same ▸ has)
      exact ⟨other, by rw [Function.update_of_ne same, has]⟩

/-- What is handed out is no handle that a name has. -/
theorem not_owned (books : Books before past) {born : Option Handle} {created : List Call}
    (handsOut : HandsOut born created) (fresh : Throughout Call.Fresh past created)
    (out : born = some h) (name : String) : before name ≠ some h := by
  cases handsOut with
  | nothing => cases out
  | one hands =>
      obtain rfl := Option.some.inj out
      exact fun has => throughout_singleton.mp fresh _ hands ((books.live _).mpr ⟨name, has⟩)

end Books

theorem HandsOut.ne_none {born : Option Handle} {created : List Call} {call : Call}
    (handsOut : HandsOut born created) (made : call ∈ created) : call.handedOut? ≠ none := by
  cases handsOut with
  | nothing => cases made
  | one out =>
      rw [List.mem_singleton.mp made, out]
      exact nofun

theorem Deletes.ne_create {dead : Option Handle} {deleted : List Call} {call : Call}
    (deletes : Deletes dead deleted) (made : call ∈ deleted) : call.request ≠ .create := by
  cases deletes with
  | nothing => cases made
  | one gone =>
      rw [List.mem_singleton.mp made, gone]
      exact nofun

theorem HandsOut.live_iff {born : Option Handle} {past created : List Call} {h : Handle}
    (handsOut : HandsOut born created) :
    Live h (past ++ created) ↔ born = some h ∨ Live h past := by
  cases handsOut with
  | nothing => simp only [List.append_nil, reduceCtorEq, false_or]
  | one out =>
      have stays := Call.request_of_handedOut out
      rw [live_concat, out, stays]
      simp only [ne_eq, reduceCtorEq, not_false_eq_true, and_true]

theorem Deletes.live_iff {dead : Option Handle} {past deleted : List Call} {h : Handle}
    (deletes : Deletes dead deleted) :
    Live h (past ++ deleted) ↔ Live h past ∧ dead ≠ some h := by
  cases deletes with
  | nothing => simp only [List.append_nil, ne_eq, reduceCtorEq, not_false_eq_true, and_true]
  | @one call k gone =>
      have nothing : call.handedOut? = none := by
        cases out : call.handedOut? with
        | none => rfl
        | some other => rw [Call.request_of_handedOut out] at gone; cases gone
      rw [live_concat, nothing, gone]
      simp only [reduceCtorEq, false_or, ne_eq, Request.delete.injEq, Option.some.injEq]

namespace Books

variable {before after : String → Option Handle} {past calls : List Call} {h : Handle}

/-- The names have all live handles still. -/
theorem turnover (books : Books before past) (turn : Turnover before after calls)
    (fresh : Throughout Call.Fresh past calls) : Books after (past ++ calls) := by
  -- If the names keep their handles, no call has changed which are live. Otherwise the new
  -- handle is live since its creation and the old one no more since its deletion.
  cases turn with
  | kept same quiet =>
      subst same
      refine ⟨fun h => ?_, books.distinct⟩
      rw [live_append fun call made => ⟨(quiet call made).1, (quiet call made).2.1 h⟩, books.live]
  | @renewed born created deleted name handsOut deletes next =>
      subst next
      obtain ⟨fresh, -⟩ := throughout_append.mp fresh
      refine ⟨fun h => ?_, fun m n h hasM hasN => ?_⟩
      · rw [← List.append_assoc, deletes.live_iff, handsOut.live_iff, books.live,
          books.owned_update]
        -- What is handed out cannot be what is deleted, since that is live.
        have apart := books.not_owned (h := h) handsOut fresh
        constructor
        · rintro ⟨out | has, lost⟩
          · exact Or.inl out
          · exact Or.inr ⟨has, lost⟩
        · rintro (out | ⟨has, lost⟩)
          · exact ⟨Or.inl out, apart out name⟩
          · exact ⟨Or.inr has, lost⟩
      · have apart := books.not_owned (h := h) handsOut fresh
        -- Two names with the handle that is handed out would have had it before.
        by_cases sameM : m = name
        · by_cases sameN : n = name
          · rw [sameM, sameN]
          · rw [sameM, Function.update_self] at hasM
            rw [Function.update_of_ne sameN] at hasN
            exact absurd hasN (apart hasM n)
        · rw [Function.update_of_ne sameM] at hasM
          by_cases sameN : n = name
          · rw [sameN, Function.update_self] at hasN
            exact absurd hasM (apart hasN m)
          · rw [Function.update_of_ne sameN] at hasN
            exact books.distinct m n h hasM hasN

/-- Programs are named by live handles only. -/
theorem namesLive (books : Books before past) (turn : Turnover before after calls) :
    Throughout Call.NamesLive past calls := by
  -- A call behind others is judged after these, which have changed nothing that is live.
  cases turn with
  | kept same quiet =>
      rintro front call back rfl h named
      obtain ⟨quiet, behind⟩ := List.forall_mem_append.mp quiet
      have owned := (behind call List.mem_cons_self).2.2 h named
      refine (live_append fun call made => ?_).mpr ((books.live h).mpr owned)
      exact ⟨(quiet call made).1, (quiet call made).2.1 h⟩
  | @renewed born created deleted name handsOut deletes next =>
      refine throughout_append.mpr ⟨?_, ?_⟩
      · cases handsOut with
        | nothing => exact throughout_nil
        | one out =>
            refine throughout_singleton.mpr fun h named => ?_
            rw [Call.request_of_handedOut out] at named
            cases named
      · generalize own : before name = dead at deletes
        cases deletes with
        | nothing => exact throughout_nil
        | one gone =>
            refine throughout_singleton.mpr fun h named => ?_
            rw [gone] at named
            obtain rfl := Option.some.inj named
            exact handsOut.live_iff.mpr (Or.inr ((books.live _).mpr ⟨name, own⟩))

open Classical in
/-- A handle is deleted once if it is given up, and otherwise not. -/
theorem deleted (books : Books before past) (turn : Turnover before after calls)
    (fresh : Throughout Call.Fresh past calls) (h : Handle) :
    calls.countP (fun call => call.request = .delete h) =
      if (∃ name, before name = some h) ∧ ¬ ∃ name, after name = some h then 1 else 0 := by
  cases turn with
  | kept same quiet =>
      subst same
      rw [if_neg fun both => both.2 both.1, List.countP_eq_zero]
      exact fun call made => by simpa using (quiet call made).2.1 h
  | @renewed born created deleted name handsOut deletes next =>
      subst next
      obtain ⟨fresh, -⟩ := throughout_append.mp fresh
      have apart := books.not_owned (h := h) handsOut fresh
      have given : ((∃ other, before other = some h) ∧
          ¬ ∃ other, Function.update before name born other = some h) ↔ before name = some h := by
        rw [books.owned_update]
        constructor
        · rintro ⟨has, lost⟩
          by_contra kept
          exact lost (Or.inr ⟨has, kept⟩)
        -- The handle of the name is given up whether or not another one is handed out.
        · intro own
          refine ⟨⟨name, own⟩, ?_⟩
          rintro (out | ⟨-, kept⟩)
          · exact apart out name own
          · exact kept own
      have none : created.countP (fun call => call.request = .delete h) = 0 := by
        cases handsOut with
        | nothing => rfl
        | one out => simp [Call.request_of_handedOut out]
      rw [List.countP_append, none, Nat.zero_add, if_congr given rfl rfl]
      generalize before name = dead at deletes
      cases deletes with
      | nothing => simp
      | one gone => simp [gone]

end Books

end ShaderBuild
