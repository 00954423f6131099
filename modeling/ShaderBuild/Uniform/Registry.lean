import ShaderBuild.Log.Entry

/-!
# Registered Uniform Buffers

Buffers are registered under a name so that a program can ask for them by the
name of one of its uniform blocks. A name holds one buffer at a time: it has
to be removed before it can be registered again, and the attempt to register
it twice is refused and reported.

A name is stored twice, as the key a buffer is looked up by and in the buffer
itself. Look-ups compare keys alone. That the two agree is kept up by whatever
changes a registry (`named`), and is what lets a program trust the name in a
buffer it has found.

## Main definitions

* `UniformBuffer`: A buffer with its name and binding point.
* `Registry`: The registered buffers by name, one for each name.
* `Registry.register`, `Registry.remove`, `Registry.clear`: Changes.
* `Registry.find?`, `Registry.names`, `Registry.count`: Queries.

## Theorems

* `name_of_find?`: A buffer is found under its own name.
* `find?_eq_none_iff`: Nothing is found under a name that is not registered.
* `register_free`, `register_taken`: A name can be registered just if it is free.
* `find?_add`, `find?_remove`: What is found after a change.
* `remove_fst`, `entries_perm_remove`: Freeing a name takes out the buffer found under it.
-/

namespace ShaderBuild

/-- A buffer with the name it is registered under and its binding point. -/
structure UniformBuffer where
  name : String
  bindingPoint : UInt32
  buffer : UInt32
  deriving DecidableEq, Repr

/-- The registered buffers by name, oldest first, one for each name. -/
structure Registry where
  entries : List (String × UniformBuffer)
  keys_nodup : (entries.map Prod.fst).Nodup
  /-- A buffer has the name it is registered under. -/
  named : ∀ entry ∈ entries, entry.2.name = entry.1

namespace Registry

/-- What the entries of a registry give as their source. -/
def source : String := "galaxy3d::glsl::UniformBufferRegistry"

/-- The registry with nothing registered. -/
def empty : Registry := ⟨[], .nil, List.forall_mem_nil _⟩

instance : Inhabited Registry := ⟨empty⟩

/-- The names in use. -/
def names (r : Registry) : List String :=
  r.entries.map Prod.fst

/-- How many buffers are registered. -/
def count (r : Registry) : Nat :=
  r.entries.length

/-- The buffer registered under a name. -/
def find? (r : Registry) (name : String) : Option UniformBuffer :=
  r.entries.lookup name

theorem name_of_find? {r : Registry} {name : String} {b : UniformBuffer}
    (h : r.find? name = some b) : b.name = name := by
  obtain ⟨before, after, split, -⟩ := List.lookup_eq_some_iff.mp h
  exact r.named (name, b) (split ▸ List.mem_append_right _ List.mem_cons_self)

theorem find?_eq_none_iff {r : Registry} {name : String} :
    r.find? name = none ↔ name ∉ r.names := by
  simp only [find?, List.lookup_eq_none_iff, names, List.mem_map, not_exists, not_and,
    bne_iff_ne, ne_eq]
  exact forall₂_congr fun entry _ => not_congr eq_comm

/-- The registry with one more buffer, under a name that is free. -/
def add (r : Registry) (name : String) (bindingPoint buffer : UInt32)
    (h : r.find? name = none) : Registry where
  entries := r.entries ++ [(name, ⟨name, bindingPoint, buffer⟩)]
  keys_nodup := by
    rw [List.map_append, List.nodup_append]
    refine ⟨r.keys_nodup, by simp, ?_⟩
    rintro a ha c hc rfl
    obtain rfl : a = name := List.mem_singleton.mp hc
    exact find?_eq_none_iff.1 h ha
  named := List.forall_mem_append.mpr ⟨r.named, List.forall_mem_singleton.mpr rfl⟩

/-- Register a buffer under a name, which has to be free: the buffer as it is registered,
    and the registry that has it. -/
def register (r : Registry) (name : String) (bindingPoint buffer : UInt32) :
    Logged (Except Failure (UniformBuffer × Registry)) :=
  match h : r.find? name with
  | some _ => Logged.refuse source s!"Uniform buffer '{name}' already registered"
  | none => do
    Logged.note (.report .debug source (s!"Registered uniform buffer '{name}' " ++
      s!"(binding point {bindingPoint}, buffer {buffer})"))
    pure (.ok (⟨name, bindingPoint, buffer⟩, r.add name bindingPoint buffer h))

section Changes

variable {r : Registry} {name : String} {bindingPoint buffer : UInt32}

theorem register_free (free : r.find? name = none) :
    (r.register name bindingPoint buffer).value =
      .ok (⟨name, bindingPoint, buffer⟩, r.add name bindingPoint buffer free) := by
  unfold register
  split
  · next taken => rw [free] at taken; cases taken
  · rfl

theorem register_taken (taken : r.find? name ≠ none) :
    (r.register name bindingPoint buffer).value =
      .error (.invalidResource s!"Uniform buffer '{name}' already registered") := by
  unfold register
  split
  · rfl
  · next free => exact absurd free taken

theorem find?_add (free : r.find? name = none) (other : String) :
    (r.add name bindingPoint buffer free).find? other =
      if other = name then some ⟨name, bindingPoint, buffer⟩ else r.find? other := by
  unfold find? add
  rw [List.lookup_append, List.lookup_cons, List.lookup_nil]
  by_cases same : other = name
  · -- The new entry is the last one, so nothing before it may have the name.
    rw [if_pos same, same, show r.entries.lookup name = none from free, beq_self_eq_true]
    rfl
  · rw [if_neg same, beq_eq_false_iff_ne.mpr same]
    exact Option.or_none

end Changes

/-- What some entries have under a name, and the entries without it. -/
def takeOut (name : String) :
    List (String × UniformBuffer) → Option UniformBuffer × List (String × UniformBuffer)
  | [] => (none, [])
  | entry :: rest =>
    if entry.1 = name then (some entry.2, rest)
    else ((takeOut name rest).1, entry :: (takeOut name rest).2)

section TakeOut

variable (name : String) (entries : List (String × UniformBuffer))

theorem takeOut_fst : (takeOut name entries).1 = entries.lookup name := by
  -- Both look at the entries in order, and end at the first one with the name.
  induction entries with
  | nil => rfl
  | cons entry rest ih =>
      rw [takeOut, List.lookup_cons]
      by_cases own : entry.1 = name
      · rw [if_pos own, own, beq_self_eq_true]
      · rw [if_neg own, beq_eq_false_iff_ne.mpr (Ne.symm own)]
        exact ih

theorem perm_takeOut :
    entries.Perm ((takeOut name entries).1.toList.map (Prod.mk name) ++
      (takeOut name entries).2) := by
  induction entries with
  | nil => exact .nil
  | cons entry rest ih =>
      rw [takeOut]
      by_cases own : entry.1 = name
      · rw [if_pos own, ← own]
        exact .refl _
      · rw [if_neg own]
        exact (ih.cons entry).trans List.perm_middle.symm

theorem takeOut_sublist : (takeOut name entries).2.Sublist entries := by
  induction entries with
  | nil => exact .slnil
  | cons entry rest ih =>
      rw [takeOut]
      by_cases own : entry.1 = name
      · rw [if_pos own]
        exact List.sublist_cons_self entry rest
      · rw [if_neg own]
        exact ih.cons_cons entry

/-- Only the first entry under a name is taken out, so the name is free after that just
    because no other entry has it. -/
theorem lookup_takeOut (nodup : (entries.map Prod.fst).Nodup) (other : String) :
    (takeOut name entries).2.lookup other =
      if other = name then none else entries.lookup other := by
  induction entries with
  | nil => exact (ite_self none).symm
  | cons entry rest ih =>
      rw [List.map_cons, List.nodup_cons] at nodup
      rw [takeOut, List.lookup_cons]
      -- The entry that is taken out is the first with the name, and the rest has no other.
      by_cases own : entry.1 = name
      · rw [if_pos own]
        by_cases same : other = name
        · rw [if_pos same, List.lookup_eq_none_iff]
          intro later mem
          rw [bne_iff_ne, same, ← own]
          exact fun again => nodup.1 (again ▸ List.mem_map_of_mem mem)
        · rw [if_neg same, beq_eq_false_iff_ne.mpr (own ▸ same)]
      · rw [if_neg own, List.lookup_cons, ih nodup.2]
        by_cases same : other = name
        · rw [if_pos same, if_pos same, beq_eq_false_iff_ne.mpr (same ▸ Ne.symm own)]
        · rw [if_neg same, if_neg same]

end TakeOut

/-- Free a name: what was registered under it, and the registry without it. -/
def remove (r : Registry) (name : String) : Option UniformBuffer × Registry :=
  ((takeOut name r.entries).1,
    { entries := (takeOut name r.entries).2
      keys_nodup := r.keys_nodup.sublist ((takeOut_sublist name r.entries).map Prod.fst)
      named := fun entry mem => r.named entry ((takeOut_sublist name r.entries).subset mem) })

theorem remove_fst (r : Registry) (name : String) : (r.remove name).1 = r.find? name :=
  takeOut_fst name r.entries

theorem find?_remove (r : Registry) (removed name : String) :
    (r.remove removed).2.find? name = if name = removed then none else r.find? name :=
  lookup_takeOut removed r.entries r.keys_nodup name

/-- What is registered is what is taken out when a name is freed and what stays. -/
theorem entries_perm_remove (r : Registry) (name : String) :
    r.entries.Perm ((r.remove name).1.toList.map (Prod.mk name) ++ (r.remove name).2.entries) :=
  perm_takeOut name r.entries

/-- Free all names. -/
def clear (_ : Registry) : Registry :=
  empty

end Registry

end ShaderBuild
