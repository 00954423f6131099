/-!
# Values by Name

A finite map from names to values, in which assigning a name forgets what it
stood for before.

## Main definitions

* `Named`: Values by name.
* `Named.get?`, `Named.assign`, `Named.erase`: The value of a name, and changes.

## Theorems

* `get?_assign`, `get?_erase`: What each change does to every name.
-/

namespace ShaderBuild

/-- Values by name. -/
structure Named (α : Type) where
  entries : List (String × α)

namespace Named

variable {α : Type}

instance : Inhabited (Named α) := ⟨⟨[]⟩⟩

/-- The value of a name. -/
def get? (m : Named α) (name : String) : Option α :=
  m.entries.lookup name

/-- The map without a name. -/
def erase (m : Named α) (name : String) : Named α :=
  ⟨m.entries.filter fun entry => entry.1 ≠ name⟩

/-- The map with a name standing for a value. -/
def assign (m : Named α) (name : String) (a : α) : Named α :=
  ⟨(name, a) :: (m.erase name).entries⟩

theorem get?_erase (m : Named α) (name other : String) :
    (m.erase name).get? other = if other = name then none else m.get? other := by
  simp only [get?, erase]
  induction m.entries with
  | nil => simp
  | cons entry rest ih =>
      obtain ⟨k, a⟩ := entry
      by_cases hk : k = name
      · subst hk
        rw [List.filter_cons_of_neg (by simp), ih]
        by_cases ho : other = k
        · simp [ho]
        · simp [ho, List.lookup_cons, beq_eq_false_iff_ne.2 ho]
      · rw [List.filter_cons_of_pos (by simp [hk]), List.lookup_cons, List.lookup_cons, ih]
        by_cases ho : other = k
        · simp [ho, hk]
        · simp [beq_eq_false_iff_ne.2 ho]

theorem get?_assign (m : Named α) (name other : String) (a : α) :
    (m.assign name a).get? other = if other = name then some a else m.get? other := by
  have h := get?_erase m name other
  simp only [get?] at h ⊢
  simp only [assign, List.lookup_cons]
  by_cases ho : other = name
  · simp [ho]
  · rw [beq_eq_false_iff_ne.2 ho, h, if_neg ho, if_neg ho]

end Named

end ShaderBuild
