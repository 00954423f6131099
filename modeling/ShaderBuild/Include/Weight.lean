/-!
# Weights of Bounded Stacks

Why a stack of bounded height cannot be worked on for ever. Opening a file
puts a list of unknown length on top of the stack, so neither the height of
the stack nor the amount of work on it goes down. What does go down is the
sequence of amounts from the bottom up, compared place by place: some place
gets smaller, and only places above it may grow. With a fixed number of places
this order is well founded.

## Main definitions

* `Weight`: A fixed number of amounts.
* `Weight.Lt`: Comparison place by place, the first difference deciding.
* `Weight.ofList`: The amounts of a list, filled up with zeros.

## Theorems

* `Weight.wf`: No weight can be made smaller for ever.
* `Weight.ofList_lt`: A place gets smaller, whatever stands above it.
* `Weight.ofList_lt_of_take`: A positive place on top disappears.
-/

namespace ShaderBuild

/-- A fixed number of amounts. -/
def Weight : Nat → Type
  | 0 => Unit
  | n + 1 => Nat × Weight n

namespace Weight

/-- Comparison place by place, the first difference deciding. -/
def Lt : (n : Nat) → Weight n → Weight n → Prop
  | 0 => fun _ _ => False
  | n + 1 => Prod.Lex (· < ·) (Lt n)

theorem wf : (n : Nat) → WellFounded (Lt n)
  | 0 => ⟨fun _ => ⟨_, fun _ h => h.elim⟩⟩
  | n + 1 => (Prod.lex Nat.lt_wfRel ⟨Lt n, wf n⟩).wf

instance (n : Nat) : WellFoundedRelation (Weight n) := ⟨Lt n, wf n⟩

/-- The amounts of a list, filled up with zeros. Amounts past the last place
    are dropped. -/
def ofList : (n : Nat) → List Nat → Weight n
  | 0, _ => ()
  | n + 1, [] => (0, ofList n [])
  | n + 1, a :: rest => (a, ofList n rest)

theorem ofList_lt {n : Nat} (below : List Nat) (h : below.length < n) {a b : Nat} (hab : a < b)
    (above above' : List Nat) :
    Lt n (ofList n (below ++ a :: above)) (ofList n (below ++ b :: above')) := by
  -- The places below are equal, so the comparison is handed up to the first that differs.
  induction below generalizing n with
  | nil =>
      cases n with
      | zero => simp at h
      | succ n => exact Prod.Lex.left _ _ hab
  | cons c rest ih =>
      cases n with
      | zero => simp at h
      | succ n => exact Prod.Lex.right _ (ih (by simpa using h))

theorem ofList_lt_of_take {n : Nat} (below : List Nat) (h : below.length < n) {b : Nat}
    (hb : 0 < b) : Lt n (ofList n below) (ofList n (below ++ [b])) := by
  -- Where the shorter list ends its places count as zero, and there the other is positive.
  induction below generalizing n with
  | nil =>
      cases n with
      | zero => simp at h
      | succ n => exact Prod.Lex.left _ _ hb
  | cons c rest ih =>
      cases n with
      | zero => simp at h
      | succ n => exact Prod.Lex.right _ (ih (by simpa using h))

end Weight

end ShaderBuild
