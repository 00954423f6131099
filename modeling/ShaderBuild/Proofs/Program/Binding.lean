import ShaderBuild.Proofs.Program.Steps

/-!
# Binding Requested Blocks

The loop that binds blocks by name, until one cannot be bound.

What the loop binds cannot be read off the device it starts on. A device may
answer differently about one block once another has been bound, and the loop
asks about a name only when it gets there. So the blocks it binds are described
without the loop, as a list that is the longest of its kind: every block has
the index that the device gives once the blocks before it are bound, and the
name behind the last has no index at that point, or no registered buffer. On a
device that answers from a table the index is the same at every point, and the
names bound are the longest prefix that the table and the registry both know.

## Main definitions

* `BoundBlock.requests`: The three requests that bind a block.
* `BoundBlock.From`: A block is bound as its index and the registry say.
* `indexAfter`: The index of a name once some blocks are bound.
* `LongestBound`: The blocks to bind, and no more can be.
* `obstacle`: The failure over the name where the binding stops.
* `Session.withBound`: A session once some blocks have been bound in it.

## Theorems

* `bindable_or`: A name cannot be bound, or there is a block to bind it as.
* `indexAfter_scripted`: A scripted device answers from a table.
* `LongestBound.map_name_eq_takeWhile`: On a table, the names bound are the
  longest prefix that can be.
* `LongestBound.from_table`: On a table, a block has the index of the table.
* `Program.bindAll_bound`: A name that can be bound is, and the loop goes on.
* `Program.bindAll_stop`: At one that cannot, the loop ends.
* `Program.bindAll_run`: The loop binds the longest list there is.
-/

namespace ShaderBuild

/-- The requests that bind a block: its index is asked for, its buffer is put
    at the binding point, and the block is let read from there. -/
def BoundBlock.requests (h : Handle) (b : BoundBlock) : List Request :=
  [.blockIndex h b.name, .bindBuffer b.bindingPoint b.buffer, .bindBlock h b.index b.bindingPoint]

/-- What is noted of a block once it is bound. -/
def BoundBlock.entry (b : BoundBlock) : Entry :=
  Entry.report .trace Operation.source (s!"Autoresolved `{b.name}`: block {b.index} -> " ++
    s!"binding point {b.bindingPoint} (buffer {b.buffer})")

/-- The block is bound as its index and the registry say. -/
def BoundBlock.From (registry : Registry) (index : Option UInt32) (b : BoundBlock) : Prop :=
  index = some b.index ∧ registry.find? b.name = some ⟨b.name, b.bindingPoint, b.buffer⟩

theorem bindable_or (registry : Registry) (index : Option UInt32) (name : String) :
    (index = none ∨ registry.find? name = none) ∨
      ∃ b : BoundBlock, b.name = name ∧ b.From registry index := by
  rcases index with _ | i
  · exact .inl (.inl rfl)
  · cases found : registry.find? name with
    | none => exact .inl (.inr rfl)
    | some entry =>
        cases entry with
        | mk name' bindingPoint buffer =>
            cases Registry.name_of_find? found
            exact .inr ⟨⟨_, i, bindingPoint, buffer⟩, rfl, rfl, found⟩

variable {σ : Type} [Device σ]

/-- The index the device gives for a name once some blocks have been bound. -/
def indexAfter (d : σ) (h : Handle) (bound : List BoundBlock) (name : String) : Option UInt32 :=
  (Device.answer (Device.after d (bound.flatMap (BoundBlock.requests h)))
    (.blockIndex h name)).1.reply

/-- The failure over a name that cannot be bound once some blocks are. -/
def obstacle (d : σ) (h : Handle) (bound : List BoundBlock) (name : String) : Failure :=
  if indexAfter d h bound name = none then .blockMissing name else .bufferMissing name

/-- The blocks bound for a list of names: a prefix of it, each with the index
    the device gives when its turn comes, up to a name that cannot be bound. -/
structure LongestBound (registry : Registry) (h : Handle) (d : σ) (names : List String)
    (blocks : List BoundBlock) : Prop where
  isPrefix : blocks.map BoundBlock.name <+: names
  bound : ∀ before b rest, blocks = before ++ b :: rest →
    b.From registry (indexAfter d h before b.name)
  maximal : ∀ name, names[blocks.length]? = some name →
    indexAfter d h blocks name = none ∨ registry.find? name = none

theorem indexAfter_nil (d : σ) (h : Handle) (name : String) :
    indexAfter d h [] name = (Device.answer d (.blockIndex h name)).1.reply := rfl

theorem indexAfter_cons (d : σ) (h : Handle) (b : BoundBlock) (bound : List BoundBlock)
    (name : String) :
    indexAfter d h (b :: bound) name =
      indexAfter (Device.after d (b.requests h)) h bound name := by
  simp only [indexAfter, List.flatMap_cons, Device.after_append]

theorem indexAfter_scripted (d : Scripted) (h : Handle) (bound : List BoundBlock)
    -- Binding a block changes nothing about the table or about what is linked.
    (name : String) :
    indexAfter d h bound name = if h ∈ d.linked then d.blocks.lookup name else none := by
  induction bound with
  | nil => rfl
  | cons b bound ih =>
      rw [indexAfter_cons]
      exact ih

theorem obstacle_cons (d : σ) (h : Handle) (b : BoundBlock) (bound : List BoundBlock) :
    obstacle d h (b :: bound) = obstacle (Device.after d (b.requests h)) h bound := by
  funext name
  rw [obstacle, indexAfter_cons]
  rfl

namespace LongestBound

variable {registry : Registry} {h : Handle} {d : σ} {name : String} {names : List String}
  {blocks : List BoundBlock}

theorem nil : LongestBound registry h d [] [] where
  isPrefix := List.nil_prefix
  bound := fun before b rest eq => absurd eq (by simp)
  maximal := fun name none => absurd none (by simp)

theorem stop (unbindable : indexAfter d h [] name = none ∨ registry.find? name = none) :
    LongestBound registry h d (name :: names) [] where
  isPrefix := List.nil_prefix
  bound := fun before b rest eq => absurd eq (by simp)
  maximal := by
    intro other first
    cases first
    exact unbindable

theorem cons {b : BoundBlock} (first : b.From registry (indexAfter d h [] b.name))
    (rest : LongestBound registry h (Device.after d (b.requests h)) names blocks) :
    LongestBound registry h d (b.name :: names) (b :: blocks) where
  isPrefix := by
    rw [List.map_cons]
    exact (List.prefix_cons_inj b.name).2 rest.isPrefix
  bound := by
    intro before c after eq
    -- What the device says later is said after the first block has been bound.
    cases before with
    | nil =>
        cases eq
        exact first
    | cons b' before =>
        cases eq
        rw [indexAfter_cons]
        exact rest.bound before c after rfl
  maximal := by
    intro name stopped
    rw [indexAfter_cons]
    exact rest.maximal name stopped

theorem from_table {indexOf : String → Option UInt32}
    (table : ∀ before name, indexAfter d h before name = indexOf name)
    (longest : LongestBound registry h d names blocks) {b : BoundBlock} (mem : b ∈ blocks) :
    b.From registry (indexOf b.name) := by
  obtain ⟨before, after, split⟩ := List.append_of_mem mem
  rw [← table before]
  exact longest.bound before b after split

theorem map_name_eq_takeWhile {indexOf : String → Option UInt32}
    (table : ∀ before name, indexAfter d h before name = indexOf name)
    (longest : LongestBound registry h d names blocks) :
    blocks.map BoundBlock.name =
      names.takeWhile fun name => (indexOf name).isSome && (registry.find? name).isSome := by
  -- All names of the prefix are known, and the one behind it is not.
  rcases longest.isPrefix with ⟨rest, rfl⟩
  have present : ∀ name ∈ blocks.map BoundBlock.name,
      ((indexOf name).isSome && (registry.find? name).isSome) = true := by
    intro name named
    obtain ⟨b, mem, rfl⟩ := List.mem_map.1 named
    obtain ⟨index, found⟩ := longest.from_table table mem
    rw [index, found]
    rfl
  rw [List.takeWhile_append_of_pos present]
  cases rest with
  | nil => rw [List.takeWhile_nil, List.append_nil]
  | cons name rest =>
      have absent := longest.maximal name (by simp)
      rw [table] at absent
      rw [List.takeWhile_cons_of_neg, List.append_nil]
      rcases absent with none | none <;> simp [none]

end LongestBound

/-- The session once some blocks have been bound in it. -/
def Session.withBound (s : Session σ Program) (blocks : List BoundBlock) : Session σ Program :=
  { s.asked (blocks.flatMap (BoundBlock.requests s.owner.handle)) with
    owner := { s.owner with bound := s.owner.bound ++ blocks }
    log := s.log ++ blocks.map BoundBlock.entry }

theorem Session.withBound_nil (s : Session σ Program) : s.withBound [] = s := by
  simp only [withBound, asked, List.flatMap_nil, Device.after_nil, Device.journal_nil,
    List.map_nil, List.append_nil]

theorem Session.withBound_cons (s : Session σ Program) (b : BoundBlock)
    (blocks : List BoundBlock) :
    s.withBound (b :: blocks) = (s.withBound [b]).withBound blocks := by
  simp only [withBound, asked, List.flatMap_cons, List.flatMap_nil, List.append_nil,
    Device.after_append, Device.journal_append, List.map_cons, List.map_nil, List.append_assoc,
    List.singleton_append]

namespace Program

open Operation

theorem bindAll_bound {s : Session σ Program} (calm : Device.Calm s.shared.device)
    {registry : Registry} {b : BoundBlock} (rest : List String)
    (bindable : b.From registry (indexAfter s.shared.device s.owner.handle [] b.name)) :
    bindAll registry (b.name :: rest) s = bindAll registry rest (s.withBound [b]) := by
  -- The device knows the index and the registry the buffer, so the loop takes the long way.
  rcases bindable with ⟨index, found⟩
  simp only [bindAll, bind_run, owner_run]
  rw [ask_run calm]
  rw [indexAfter_nil] at index
  simp only [index, found, bind_run]
  rw [attach_run (Device.calm_after calm _), Session.asked_asked]
  rfl

theorem bindAll_stop {s : Session σ Program} (calm : Device.Calm s.shared.device)
    {registry : Registry} {name : String} (rest : List String)
    (unbindable : indexAfter s.shared.device s.owner.handle [] name = none ∨
      registry.find? name = none) :
    bindAll registry (name :: rest) s =
      .ok (some (obstacle s.shared.device s.owner.handle [] name))
        (s.asked [.blockIndex s.owner.handle name]) := by
  simp only [bindAll, bind_run, owner_run]
  rw [ask_run calm, obstacle]
  rw [indexAfter_nil] at unbindable ⊢
  cases index : (Device.answer s.shared.device (.blockIndex s.owner.handle name)).1.reply with
  | none => rfl
  | some i =>
      -- The device knows the name, so it is the registry that does not.
      have missing : registry.find? name = none := by
        rcases unbindable with none | none
        · rw [index] at none
          exact absurd none (by simp only [reduceCtorEq, not_false_eq_true])
        · exact none
      rw [missing]
      rfl

theorem bindAll_run (registry : Registry) (names : List String) (s : Session σ Program)
    (calm : Device.Calm s.shared.device) :
    ∃ blocks, LongestBound registry s.owner.handle s.shared.device names blocks ∧
      bindAll registry names s =
        .ok (names[blocks.length]?.map (obstacle s.shared.device s.owner.handle blocks))
          ((s.withBound blocks).asked
            (names[blocks.length]?.toList.map (.blockIndex s.owner.handle))) := by
  -- Induction on the names. The session changes with each block that is bound.
  induction names generalizing s with
  | nil =>
      refine ⟨[], .nil, ?_⟩
      rw [Session.withBound_nil]
      exact congrArg (EStateM.Result.ok none) s.asked_nil.symm
  | cons name rest ih =>
      rcases bindable_or registry (indexAfter s.shared.device s.owner.handle [] name) name with
        unbindable | ⟨b, rfl, bindable⟩
      · refine ⟨[], .stop unbindable, ?_⟩
        rw [bindAll_stop calm rest unbindable, Session.withBound_nil]
        rfl
      · -- The rest is bound on the device as this block leaves it.
        rcases ih (s.withBound [b]) (Device.calm_after calm _) with ⟨blocks, longest, run⟩
        refine ⟨b :: blocks, .cons bindable longest, ?_⟩
        rw [bindAll_bound calm rest bindable, run, Session.withBound_cons s b blocks, obstacle_cons]
        rfl

end Program

end ShaderBuild
