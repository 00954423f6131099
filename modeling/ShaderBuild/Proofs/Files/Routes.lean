import ShaderBuild.Files.Walk

/-!
# Routes without Links

Where the steps of a path lead in a tree that holds no symbolic link.

With links, a walk can be handed over to anywhere at any step, so its steps say
little about where it is. Without them every step moves by at most one level,
and the place a walk has come to is a function of its steps alone. The tree only
decides whether the walk arrives. That makes it possible to tell from a path as
written whether it leaves the directory it starts from: it does exactly when at
some point it has gone up more often than it has entered something.

A walk along a joined path is a walk along the root and then one along the name.
A root that already ends in a slash has one step more than it lends to the joined
path, but that step stays where it is.

## Main definitions

* `Tree.LinkFree`: No symbolic link stands in the tree.
* `Place.after`: The place a step leads to.
* `Place.Within`: A place is a directory or below it.
* `Tree.Stays`: A walk from a directory never leaves it.
* `climbsFrom`, `Path.climbs`: Steps go up more often than they have entered.

## Theorems

* `reach_append_iff`: A walk can be taken in two parts.
* `place_of_reach`: A walk arrives where its steps lead.
* `climbsFrom_eq_false_iff`: Steps that do not climb stay within, all the way.
* `stays_iff`: A walk that arrives stays in its directory unless it climbs.
* `reach_join_iff`: A walk along a joined path is one along each part.
-/

namespace ShaderBuild

/-- The place a step leads to where no link stands. Nothing is entered from
    outside the tree. -/
def Place.after : Place → PathStep → Place
  | place, .stay => place
  | place, .up => place.parent
  | .inside location, .enter name => .inside (location ++ [name])
  | .outside, .enter _ => .outside

/-- A place is the directory at `base` or below it. -/
def Place.Within (base : Location) : Place → Prop
  | .inside location => base <+: location
  | .outside => False

/-- Where the thing stands that a walk arrives at. -/
def Standing.place : Standing → Place
  | .directory place => place
  | .file location _ | .unreadable location | .vacant location => .inside location

/-- Whether steps that start `depth` levels below a directory go above it at some
    point. -/
def climbsFrom : Nat → List PathStep → Bool
  | _, [] => false
  | depth, .stay :: rest => climbsFrom depth rest
  | 0, .up :: _ => true
  | depth + 1, .up :: rest => climbsFrom depth rest
  | depth, .enter _ :: rest => climbsFrom (depth + 1) rest

/-- Whether a path goes above the directory it starts from at some point. -/
def Path.climbs (p : Path) : Bool :=
  climbsFrom 0 p.steps

theorem foldl_after_outside (steps : List PathStep) :
    steps.foldl Place.after .outside = .outside := by
  induction steps with
  | nil => rfl
  | cons step rest ih => cases step <;> exact ih

theorem parent_concat (location : Location) (name : String) :
    (Place.inside (location ++ [name])).parent = .inside location := by
  simp [Place.parent]

theorem not_within_parent (base : Location) : ¬ (Place.inside base).parent.Within base := by
  -- The parent of a directory is shorter, or is outside.
  rcases List.eq_nil_or_concat base with rfl | ⟨outer, name, rfl⟩
  · exact id
  · intro h
    rw [List.concat_eq_append, parent_concat] at h
    have hle := List.IsPrefix.length_le h
    rw [List.length_append, List.length_singleton] at hle
    omega

theorem forall_prefix_cons {α : Type} {P : List α → Prop} {a : α} {rest : List α} :
    (∀ lead, lead <+: a :: rest → P lead) ↔
      P [] ∧ ∀ lead, lead <+: rest → P (a :: lead) := by
  constructor
  · exact fun h => ⟨h [] List.nil_prefix, fun lead hlead =>
      h _ (List.cons_prefix_cons.mpr ⟨rfl, hlead⟩)⟩
  · rintro ⟨hnil, hcons⟩ lead hlead
    rcases List.prefix_cons_iff.mp hlead with rfl | ⟨others, rfl, hothers⟩
    · exact hnil
    · exact hcons others hothers

/-- Steps that do not climb stay within the directory, all the way. -/
theorem climbsFrom_eq_false_iff (base names : Location) (steps : List PathStep) :
    climbsFrom names.length steps = false ↔ ∀ lead, lead <+: steps →
      (lead.foldl Place.after (.inside (base ++ names))).Within base := by
  -- The names are what has been entered below the directory and not been left.
  induction steps generalizing names with
  | nil =>
      simp only [climbsFrom, List.prefix_nil, forall_eq, true_iff]
      exact List.prefix_append base names
  | cons step rest ih =>
      have hstart : (Place.inside (base ++ names)).Within base := List.prefix_append base names
      rw [forall_prefix_cons, List.foldl_nil, and_iff_right hstart]
      simp only [List.foldl_cons]
      cases step with
      | stay => exact ih names
      | up =>
          -- There has to be a name left to go up from.
          rcases List.eq_nil_or_concat names with rfl | ⟨others, name, rfl⟩
          · simp only [List.length_nil, climbsFrom, Bool.true_eq_false, false_iff]
            intro h
            exact not_within_parent base (by simpa [Place.after] using h [] List.nil_prefix)
          · simp only [List.concat_eq_append, List.length_append, List.length_singleton,
              climbsFrom, Place.after, ← List.append_assoc, parent_concat]
            exact ih others
      | enter name =>
          have henter := ih (names ++ [name])
          rw [List.length_append, List.length_singleton, ← List.append_assoc] at henter
          simpa only [climbsFrom, Place.after] using henter

namespace Tree

/-- No symbolic link stands in the tree. -/
def LinkFree (tree : Tree) : Prop :=
  ∀ location target, tree.node? location ≠ some (.link target)

/-- A walk along the steps from the directory at `base` never leaves it. -/
def Stays (tree : Tree) (base : Location) (steps : List PathStep) : Prop :=
  ∀ lead, lead <+: steps → ∃ standing,
    tree.reach (.inside base) lead = .ok standing ∧ standing.place.Within base

theorem linkFree_of_nodes {tree : Tree}
    (h : ∀ entry ∈ tree.nodes, ∀ target, entry.2 ≠ .link target) : tree.LinkFree := by
  intro location target hnode
  unfold node? at hnode
  split at hnode
  · simp at hnode
  · obtain ⟨before, after, heq, -⟩ := List.lookup_eq_some_iff.mp hnode
    exact h (location, .link target) (by simp [heq]) target rfl

section Steps

variable {tree : Tree} {passes : Location → Bool} {links : Nat}
  {follow : Place → List PathStep → Except Fault Standing}

variable (passes links follow) in
/-- A step fails whatever comes after it, or it leads to something at its place
    from which the walk goes on. -/
theorem takeSteps_cons (hfree : tree.LinkFree) (standing : Standing) (step : PathStep) :
    (∃ fault, ∀ rest,
      tree.takeSteps passes links follow standing (step :: rest) = .error fault) ∨
    ∃ next : Standing, next.place = standing.place.after step ∧ ∀ rest found,
      tree.takeSteps passes links follow standing (step :: rest) = .ok found ↔
        tree.takeSteps passes links follow next rest = .ok found := by
  -- By what the walk stands at, then by the step. Entering a name is the step that looks at
  -- the tree.
  cases standing with
  | directory place =>
      cases step with
      | stay => exact Or.inr ⟨.directory place, rfl, fun _ _ => Iff.rfl⟩
      | up => exact Or.inr ⟨.directory place.parent, rfl, fun _ _ => Iff.rfl⟩
      | enter name =>
          by_cases hname : maxNameBytes < name.utf8ByteSize
          · exact Or.inl ⟨.nameTooLong, fun _ => by simp only [takeSteps, if_pos hname]⟩
          cases place with
          | outside => exact Or.inl ⟨.notFound, fun _ => by simp only [takeSteps, if_neg hname]⟩
          | inside parent =>
              simp only [takeSteps, if_neg hname]
              -- A node that is entered stands where the name leads; a link is ruled out.
              by_cases hpasses : passes (parent ++ [name])
              · simp only [if_pos hpasses]
                cases hnode : tree.node? (parent ++ [name]) with
                | none =>
                    -- No step leads on from a vacancy, for one reason or another.
                    refine Or.inr ⟨.vacant (parent ++ [name]), rfl, fun rest found => ?_⟩
                    cases rest <;> simp [takeSteps]
                | some node =>
                    cases node with
                    | file bytes => exact Or.inr ⟨_, rfl, fun _ _ => Iff.rfl⟩
                    | directory => exact Or.inr ⟨_, rfl, fun _ _ => Iff.rfl⟩
                    | link target => exact absurd hnode (hfree _ target)
                    | unreadable =>
                        by_cases hlinks : links < 2
                        · exact Or.inl ⟨.tooManyLinks, fun _ => by simp only [if_pos hlinks]⟩
                        · simp only [if_neg hlinks]
                          exact Or.inr ⟨_, rfl, fun _ _ => Iff.rfl⟩
              · exact Or.inl ⟨.nameTooLong, fun _ => by simp only [if_neg hpasses]⟩
  | _ => exact Or.inl ⟨.notDirectory, fun _ => by simp only [takeSteps]⟩

theorem takeSteps_append_iff (hfree : tree.LinkFree) {lead rest : List PathStep} (hrest : rest ≠ [])
    (standing : Standing) {found : Standing} :
    tree.takeSteps passes links follow standing (lead ++ rest) = .ok found ↔
      ∃ place, tree.takeSteps passes links follow standing lead = .ok (.directory place) ∧
        tree.takeSteps passes links follow (.directory place) rest = .ok found := by
  -- Induction on the first steps, each of which fails for good or leads on.
  induction lead generalizing standing with
  | nil =>
      cases standing with
      | directory place => simp [takeSteps]
      | _ =>
        -- Only a directory can be left by a step.
        obtain ⟨step, others, rfl⟩ := List.exists_cons_of_ne_nil hrest
        simp [takeSteps]
  | cons step lead ih =>
      rcases takeSteps_cons passes links follow hfree standing step with
        ⟨fault, hfault⟩ | ⟨next, -, hnext⟩
      · simp [hfault]
      · simp only [List.cons_append, hnext, ih]

theorem place_of_takeSteps (hfree : tree.LinkFree) (steps : List PathStep) (standing : Standing)
    {found : Standing} (h : tree.takeSteps passes links follow standing steps = .ok found) :
    found.place = steps.foldl Place.after standing.place := by
  induction steps generalizing standing with
  | nil =>
      simp only [takeSteps, Except.ok.injEq] at h
      rw [h, List.foldl_nil]
  | cons step rest ih =>
      rcases takeSteps_cons passes links follow hfree standing step with
        ⟨fault, hfault⟩ | ⟨next, hplace, hnext⟩
      · rw [hfault] at h
        cases h
      · rw [ih next ((hnext rest found).mp h), hplace, List.foldl_cons]

end Steps

namespace LinkFree

variable {tree : Tree} {place : Place}

theorem reach_append_iff (hfree : tree.LinkFree) {lead rest : List PathStep} (hrest : rest ≠ [])
    {found : Standing} : tree.reach place (lead ++ rest) = .ok found ↔
      ∃ next, tree.reach place lead = .ok (.directory next) ∧
        tree.reach next rest = .ok found :=
  takeSteps_append_iff hfree hrest (.directory place)

theorem place_of_reach (hfree : tree.LinkFree) {steps : List PathStep} {found : Standing}
    (h : tree.reach place steps = .ok found) : found.place = steps.foldl Place.after place :=
  place_of_takeSteps hfree steps (.directory place) h

theorem reach_of_prefix (hfree : tree.LinkFree) {lead steps : List PathStep} {found : Standing}
    (h : tree.reach place steps = .ok found) (hlead : lead <+: steps) :
    ∃ standing, tree.reach place lead = .ok standing := by
  -- The whole way arrives, and so does its front as long as a step follows it.
  obtain ⟨rest, rfl⟩ := hlead
  by_cases hrest : rest = []
  · exact ⟨found, by rwa [hrest, List.append_nil] at h⟩
  · obtain ⟨next, hnext, -⟩ := (reach_append_iff hfree hrest).mp h
    exact ⟨.directory next, hnext⟩

/-- A walk that arrives stays in its directory unless it climbs. -/
theorem stays_iff (hfree : tree.LinkFree) {base : Location} {steps : List PathStep}
    {found : Standing} (h : tree.reach (.inside base) steps = .ok found) :
    tree.Stays base steps ↔ climbsFrom 0 steps = false := by
  have hclimbs := climbsFrom_eq_false_iff base [] steps
  -- Both sides are about the same places, as every front of the way arrives.
  rw [List.length_nil, List.append_nil] at hclimbs
  rw [hclimbs]
  constructor
  · intro hstays lead hlead
    obtain ⟨standing, hreach, hwithin⟩ := hstays lead hlead
    rwa [place_of_reach hfree hreach] at hwithin
  · intro hwithin lead hlead
    obtain ⟨standing, hreach⟩ := reach_of_prefix hfree h hlead
    exact ⟨standing, hreach, place_of_reach hfree hreach ▸ hwithin lead hlead⟩

/-- A file is only found by walks from a directory of the tree. -/
theorem inside_of_reach_file (hfree : tree.LinkFree) {steps : List PathStep} {location : Location}
    {bytes : List UInt8} (h : tree.reach place steps = .ok (.file location bytes)) :
    ∃ base, place = .inside base := by
  cases place with
  | inside base => exact ⟨base, rfl⟩
  | outside =>
      have hplace := place_of_reach hfree h
      rw [foldl_after_outside] at hplace
      cases hplace

end LinkFree

end Tree

theorem pieces_ne_nil (s : List Char) : pieces s ≠ [] := by
  cases s with
  | nil => exact List.cons_ne_nil _ _
  | cons c rest =>
      rw [pieces]
      split
      · exact List.cons_ne_nil _ _
      · split <;> exact List.cons_ne_nil _ _

theorem pieces_append_slash (s t : List Char) : pieces (s ++ '/' :: t) = pieces s ++ pieces t := by
  -- Induction on the characters: a slash closes a piece, others join the first one.
  induction s with
  | nil => simp [pieces]
  | cons c rest ih =>
      by_cases hc : c = '/'
      · simp [pieces, hc, ih]
      · simp only [List.cons_append, pieces, if_neg hc, ih]
        cases hrest : pieces rest with
        | nil => exact absurd hrest (pieces_ne_nil rest)
        | cons piece others => rfl

namespace Path

theorem steps_ne_nil (p : Path) : p.steps ≠ [] :=
  mt List.map_eq_nil_iff.mp (pieces_ne_nil _)

/-- The steps of a joined path are those of its parts, but for a slash that the
    root ends with. -/
theorem exists_steps_join (root : Path) (name : String) : ∃ lead,
    (root.join name).steps = lead ++ (⟨name⟩ : Path).steps ∧
      (root.steps = lead ∨ root.steps = lead ++ [.stay]) := by
  -- The three ways in which a root ends: it is empty, it has its slash, or it gets one.
  unfold join
  split
  · next hempty =>
    rw [List.getLast?_eq_none_iff] at hempty
    -- The empty root is one empty piece, and lends nothing.
    exact ⟨[], rfl, Or.inr (by simp [steps, hempty, pieces, PathStep.ofPiece])⟩
  · next hslash =>
    obtain ⟨front, hfront⟩ := List.getLast?_eq_some_iff.mp hslash
    refine ⟨(pieces front).map PathStep.ofPiece, ?_, Or.inr ?_⟩
    · simp [steps, hfront, pieces_append_slash]
    · simp [steps, hfront, pieces_append_slash, pieces, PathStep.ofPiece]
  · refine ⟨root.steps, ?_, Or.inl rfl⟩
    simp [steps, String.toList_append, pieces_append_slash]

theorem start_join {root : Path} {name : String} (h : (⟨name⟩ : Path).isRooted = false)
    (base : Place) : (root.join name).start base = root.start base := by
  -- Whether a joined path is rooted is seen at its first character, which is the root's.
  have hroot : (root.join name).isRooted = root.isRooted := by
    unfold join
    split
    · next hempty =>
      rw [List.getLast?_eq_none_iff] at hempty
      simpa [isRooted, hempty] using h
    all_goals
      next hlast =>
      obtain ⟨front, hfront⟩ := List.getLast?_eq_some_iff.mp hlast
      cases front <;> simp [isRooted, hfront]
  simp only [start, hroot]

end Path

/-- A walk along a joined path is one along the root and one along the name. -/
theorem Tree.LinkFree.reach_join_iff {tree : Tree} (hfree : tree.LinkFree) {root : Path}
    {name : String} {place : Place} {found : Standing} :
    tree.reach place (root.join name).steps = .ok found ↔
      ∃ next, tree.reach place root.steps = .ok (.directory next) ∧
        tree.reach next (⟨name⟩ : Path).steps = .ok found := by
  obtain ⟨lead, hjoin, hroot⟩ := root.exists_steps_join name
  rw [hjoin, hfree.reach_append_iff (Path.steps_ne_nil _)]
  rcases hroot with hroot | hroot
  · rw [hroot]
  · have hstay (next : Place) : tree.reach place root.steps = .ok (.directory next) ↔
        tree.reach place lead = .ok (.directory next) := by
      rw [hroot, hfree.reach_append_iff (List.cons_ne_nil _ _)]
      constructor
      · rintro ⟨mid, hmid, hstays⟩
        cases hstays
        exact hmid
      · exact fun h => ⟨next, h, rfl⟩
    simp only [hstay]

end ShaderBuild
