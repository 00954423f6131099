import Mathlib.Data.List.Induction

/-!
# What Holds Since

What has come about in some events, oldest first, and has not been undone since.

A split of the events says what is meant: one of them has brought it about, and none
after it has undone it. It is the wrong shape to argue with, since a history grows at
its end, where the split says nothing. `since_concat` looks at the last event alone: it
brings the thing about, or finds it brought about and leaves it.

## Main definitions

* `Since`: An event has come about, and all events after it leave it so.

## Theorems

* `Since.exists_mem`: What holds since an event has come about.
* `since_concat`: What one more event does.
* `since_append`: What some more events do.
-/

namespace ShaderBuild

variable {ε : Type} {P Q : ε → Prop} {past events : List ε} {event : ε}

/-- Some event is of the first kind, and all events after it are of the second. -/
def Since (P Q : ε → Prop) (events : List ε) : Prop :=
  ∃ front event back, events = front ++ event :: back ∧ P event ∧ ∀ later ∈ back, Q later

theorem Since.exists_mem (since : Since P Q events) : ∃ event ∈ events, P event := by
  obtain ⟨front, event, back, rfl, begins, -⟩ := since
  exact ⟨event, List.mem_append_right _ List.mem_cons_self, begins⟩

theorem not_since_nil : ¬ Since P Q [] := by
  intro since
  obtain ⟨event, mem, -⟩ := since.exists_mem
  exact List.not_mem_nil mem

/-- One more event begins anew, or leaves what holds as it is. -/
theorem since_concat : Since P Q (past ++ [event]) ↔ P event ∨ Since P Q past ∧ Q event := by
  constructor
  · rintro ⟨front, first, back, split, begins, kept⟩
    -- The event is the one it holds since, or comes after that one.
    rcases List.eq_nil_or_concat back with rfl | ⟨back, last, rfl⟩
    · obtain ⟨-, same⟩ := List.append_inj' split rfl
      obtain rfl := List.singleton_inj.mp same
      exact Or.inl begins
    · rw [List.concat_eq_append, ← List.cons_append, ← List.append_assoc] at split
      obtain ⟨rfl, same⟩ := List.append_inj' split rfl
      obtain rfl := List.singleton_inj.mp same
      rw [List.concat_eq_append, List.forall_mem_append] at kept
      exact Or.inr ⟨⟨front, first, back, rfl, begins, kept.1⟩,
        kept.2 event (List.mem_singleton_self _)⟩
  · rintro (begins | ⟨⟨front, first, back, rfl, begins, kept⟩, stays⟩)
    · exact ⟨past, event, [], rfl, begins, List.forall_mem_nil _⟩
    · refine ⟨front, first, back ++ [event], by rw [List.append_assoc]; rfl, begins, ?_⟩
      exact List.forall_mem_append.mpr ⟨kept, List.forall_mem_singleton.mpr stays⟩

/-- Some more events begin anew, or leave what holds as it is. -/
theorem since_append :
    Since P Q (past ++ events) ↔ Since P Q events ∨ Since P Q past ∧ ∀ later ∈ events, Q later := by
  induction events using List.reverseRecOn with
  | nil =>
      rw [List.append_nil]
      exact ⟨fun since => Or.inr ⟨since, List.forall_mem_nil _⟩,
        fun either => either.elim (fun since => absurd since not_since_nil) And.left⟩
  | append_singleton events event ih =>
      rw [← List.append_assoc, since_concat, since_concat, ih, List.forall_mem_append,
        List.forall_mem_singleton]
      tauto

end ShaderBuild
