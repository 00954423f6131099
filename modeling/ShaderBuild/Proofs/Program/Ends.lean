import ShaderBuild.Proofs.Program.Discipline
import ShaderBuild.Proofs.Program.Parts

/-!
# What a Free Lock Tells

Operations after which the lock of their device is free, and the two ends of a
program's life.

A crash poisons the lock for good. So a lock that is found free tells of everything
done under it before: it was free then, and nothing was torn down by a crash. This is
shown of the parts of operations, and it is why nobody has to ask of a device that it
crashes over nothing. It is enough to look at the lock in the end.

What is known of an operation then is which requests it made. An action names no
program but its own, and creates and deletes none. Creating a program asks for it once
and comes to what the device replies, and the end of a program deletes it.

## Main definitions

* `Operation.SparedIfFree`: A lock that is free after an operation was so before it, and
  no crash tore the operation down.

## Theorems

* `Made.sparedIfFree`, `sparedIfFree_create`, `sparedIfFree_delete`: So it is of all
  operations.
* `Action.requests_of_effect`: What an action asks for.
* `Action.calls_of_free`: The calls of an action, if the lock is free afterwards.
* `Program.create_run`, `Program.delete_run`: What the two ends come to.
-/

namespace ShaderBuild

namespace Operation

variable {σ ω α β : Type} {s : Session σ ω}

/-- If the lock is free after an operation, it was free before, and the operation was not
    torn down by a crash. -/
def SparedIfFree (x : Operation σ ω α) (s : Session σ ω) : Prop :=
  (run x s).2.shared.poisoned = false →
    s.shared.poisoned = false ∧ (run x s).1 ≠ .error .crashed

theorem sparedIfFree_lock : SparedIfFree (lock : Operation σ ω Unit) s := by
  -- A poisoned lock stays poisoned, so it was not.
  intro free
  rw [run_lock] at free ⊢
  split
  · next poisoned =>
    rw [if_pos poisoned] at free
    exact ⟨free, nofun⟩
  · next unpoisoned => exact ⟨Bool.eq_false_iff.mpr unpoisoned, nofun⟩

/-- An operation is so at a session if its parts are where they get to. -/
theorem sparedIfFree_bind {x : Operation σ ω α} {f : α → Operation σ ω β}
    (first : SparedIfFree x s)
    (rest : ∀ a after, run x s = (.ok a, after) → SparedIfFree (f a) after) :
    SparedIfFree (x >>= f) s := by
  intro free
  -- The part that ended it early says the same of the whole; else the second part does.
  rcases hx : run x s with ⟨stop | a, after⟩
  · rw [run_bind_error hx] at free ⊢
    rw [SparedIfFree, hx] at first
    obtain ⟨before, intact⟩ := first free
    exact ⟨before, fun torn => intact (congrArg Except.error (Except.error.inj torn))⟩
  · rw [run_bind_ok hx] at free ⊢
    rw [SparedIfFree, hx] at first
    obtain ⟨between, intact⟩ := rest a after hx free
    exact ⟨(first between).1, intact⟩

variable [Device σ]

theorem sparedIfFree_ask (r : Request) : SparedIfFree (ask r : Operation σ ω r.Reply) s := by
  intro free
  rw [run_ask] at free ⊢
  -- A crash poisons the lock.
  obtain ⟨before, uncrashed⟩ := Bool.or_eq_false_iff.mp free
  rw [uncrashed, if_neg Bool.false_ne_true]
  exact ⟨before, nofun⟩

/-- What is made of the usual parts is spared if the lock is free afterwards. -/
theorem Made.sparedIfFree {h : Handle} {α : Type} {x : Generic α} (made : Made h x)
    {s : Session σ Program} (named : s.owner.handle = h) : SparedIfFree (x σ) s := by
  -- Induction on how the operation is made, with the owner that each part finds.
  induction made generalizing s with
  | pure a => exact fun free => ⟨free, nofun⟩
  | fail e => exact fun free => ⟨free, nofun⟩
  | owner rest ih => exact ih s.owner named named
  | update kept => exact fun free => ⟨free, nofun⟩
  | note mild message => exact fun free => ⟨free, nofun⟩
  | @absorb α x honest =>
      rw [SparedIfFree, run_absorb]
      refine fun free => ⟨free, ?_⟩
      cases x.value <;> exact nofun
  | lock => exact sparedIfFree_lock
  | ask concerns compiles => exact sparedIfFree_ask _
  | @compile α stage source f message accepted rejected ih =>
      refine sparedIfFree_bind (sparedIfFree_ask _) fun reply after ran => ?_
      cases reply with
      | ok done => exact ih (owner_of_ask ran ▸ named)
      | error e =>
          rw [rejected]
          exact fun free => ⟨free, nofun⟩
  | bind first rest ih later =>
      refine sparedIfFree_bind (ih named) fun a after ran => later a ?_
      have kept := first.handle named
      rwa [ran] at kept

end Operation

namespace Program

open Operation

variable {σ ω : Type} [Device σ]

theorem sparedIfFree_create (s : Session σ ω) :
    SparedIfFree (create : Operation σ ω Program) s := by
  refine sparedIfFree_bind sparedIfFree_lock fun _ _ _ =>
    sparedIfFree_bind (sparedIfFree_ask .create) fun reply _ _ => ?_
  cases reply with
  | error failure => exact fun free => ⟨free, nofun⟩
  | ok handle => exact fun free => ⟨free, nofun⟩

/-- A program under the handle that the device replies, or its failure. -/
theorem create_run {s : Session σ ω} (free : (run create s).2.shared.poisoned = false) :
    let answer := (Device.answer s.shared.device .create).1
    (run (create : Operation σ ω Program) s).1 =
        (answer.reply.map Program.new).mapError .failed ∧
      (run (create : Operation σ ω Program) s).2.calls = s.calls ++ [⟨.create, answer⟩] := by
  intro answer
  -- The lock was free before, so the device was asked, and it did not crash.
  obtain ⟨before, intact⟩ := sparedIfFree_create s free
  simp only [run, create, bind_run] at intact ⊢
  rw [lock_free before] at intact ⊢
  dsimp only [ask] at intact ⊢
  cases crashed : (Device.answer s.shared.device .create).1.crashed with
  | true =>
      rw [crashed] at intact
      exact absurd rfl intact
  | false =>
      simp only [Bool.false_eq_true, if_false, answer]
      cases (Device.answer s.shared.device .create).1.reply with
      | error failure => exact ⟨rfl, rfl⟩
      | ok handle => exact ⟨rfl, rfl⟩

theorem sparedIfFree_delete (s : Session σ Program) : SparedIfFree delete s := by
  cases poisoned : s.shared.poisoned with
  | true =>
      intro free
      simp only [run, delete, poisoned, if_true] at free
      cases free
  | false =>
      have asked : run delete s = run (ask (.delete s.owner.handle)) s := by
        simp only [run, delete, poisoned, Bool.false_eq_true, if_false]
      rw [SparedIfFree, asked]
      exact sparedIfFree_ask _

/-- The end of a program deletes it. -/
theorem delete_run {s : Session σ Program} (free : (run delete s).2.shared.poisoned = false) :
    (run delete s).2.calls = s.calls ++ [⟨.delete s.owner.handle,
      (Device.answer s.shared.device (.delete s.owner.handle)).1⟩] := by
  obtain ⟨before, -⟩ := sparedIfFree_delete s free
  have asked : run delete s = run (ask (.delete s.owner.handle)) s := by
    simp only [run, delete, before, Bool.false_eq_true, if_false]
  rw [asked, run_ask]
  rfl

end Program

namespace Action

open Operation Program

variable {σ : Type} [Device σ] {around : Surroundings} {registryOf : String → Registry}

theorem works_bindingRequests {h : Handle} {blocks : List BoundBlock} {stopped : Option String} :
    ∀ r ∈ bindingRequests h blocks stopped,
      r ≠ .create ∧ (∀ k, r ≠ .delete k) ∧ ∀ k, r.program? = some k → k = h := by
  intro r made
  have named := program?_bindingRequests r made
  simp only [bindingRequests, BoundBlock.requests, List.mem_append, List.mem_flatMap,
    List.mem_map, List.mem_cons, List.not_mem_nil, or_false] at made
  refine ⟨?_, fun k => ?_, named⟩
  · rcases made with ((rfl | ⟨b, -, rfl | rfl | rfl⟩) | ⟨name, -, rfl⟩) | rfl <;> simp
  · rcases made with ((rfl | ⟨b, -, rfl | rfl | rfl⟩) | ⟨name, -, rfl⟩) | rfl <;> simp

/-- An action creates and deletes no program, and names none but its own. -/
theorem requests_of_effect {d : σ} {p q : Program} {action : Action}
    {outcome : Except Interruption Reply} {requests : List Request}
    (effect : Effect around registryOf d p action outcome q requests) :
    ∀ r ∈ requests,
      r ≠ .create ∧ (∀ k, r ≠ .delete k) ∧ ∀ k, r.program? = some k → k = p.handle := by
  cases effect with
  | bound fits reply asks longest all =>
      refine List.forall_mem_cons.mpr ⟨?_, works_bindingRequests⟩
      simp [Request.program?, eq_comm]
  | stopped fits reply longest next =>
      refine List.forall_mem_cons.mpr ⟨?_, works_bindingRequests⟩
      simp [Request.program?, eq_comm]
  | _ => simp [Request.program?, compileRequest, eq_comm]

/-- The calls of an action, if the lock is free afterwards. -/
theorem calls_of_free (action : Action) {p : Program} {shared : Shared σ}
    (free : (action.session around registryOf p shared).shared.poisoned = false) :
    ∀ call ∈ (action.session around registryOf p shared).calls,
      call.request ≠ .create ∧ (∀ k, call.request ≠ .delete k) ∧
        ∀ k, call.request.program? = some k → k = p.handle := by
  have made := action.made around registryOf p.handle
  obtain ⟨-, intact⟩ := made.sparedIfFree (s := Session.start p shared) rfl free
  -- Without a crash the action had one of its effects, and each names its requests.
  intro call asked
  rcases effect_of_spared around registryOf intact with
    ⟨calls, -⟩ | ⟨outcome, requests, effect, calls⟩
  · rw [calls] at asked
    cases asked
  · rw [calls] at asked
    exact requests_of_effect effect _ (Device.request_mem_of_mem_journal asked)

end Action

end ShaderBuild
