import ShaderBuild.Proofs.Program.Spared

/-!
# The Tables of a Device

What a successful linking leaves on a device that binds by tables.

Such a device has a table for every program, which says of each block the binding
point that it reads from, and one table for all programs, which says of each binding
point the buffer that is there. A block reads the buffer at its binding point. To
bind a block overwrites one slot in each table, so what they hold in the end is what
was written last. In the first table that is the block's own binding point, since no
other block has its index. In the second it may come from another block: two blocks
can be registered at one binding point, and then both read the buffer of whichever
was bound last.

The device is asked for the indices while the blocks are being bound, and only the
answers that it gave are relied on.

## Main definitions

* `Tables`: A device that binds by tables.
* `Tables.readBy`: The buffer that a block reads.
* `Registry.lastAt`: The last of some names that is registered at a binding point.
* `Call.indexed?`: The block that a call has asked for, and its index.
* `Tabled`: A scripted device with tables.

## Theorems

* `last_writer`: A slot holds what the last block that wrote it has written.
* `pointOf_blocks`, `bufferAt_blocks`: The tables once some blocks are bound.
* `lastAt_blocks`: The last of some bound blocks is the last of their names.
* `bound_of_link`: Linking succeeds only by binding every block.
* `link_fills_tables`: The tables after a successful linking.
-/

namespace ShaderBuild

/-- A device that keeps, for every program, the binding point that each of its
    blocks reads from, and the buffer that is at each binding point. Each request
    to bind overwrites one slot. -/
structure Tables (σ : Type) [Device σ] where
  pointOf : σ → Handle → UInt32 → Option UInt32
  bufferAt : σ → UInt32 → Option UInt32
  pointOf_bindBlock : ∀ d h index point k i,
    pointOf (Device.answer d (.bindBlock h index point)).2 k i =
      if k = h ∧ i = index then some point else pointOf d k i
  pointOf_bindBuffer : ∀ d point buffer,
    pointOf (Device.answer d (.bindBuffer point buffer)).2 = pointOf d
  pointOf_blockIndex : ∀ d h name, pointOf (Device.answer d (.blockIndex h name)).2 = pointOf d
  pointOf_release : ∀ d, pointOf (Device.answer d .release).2 = pointOf d
  bufferAt_bindBuffer : ∀ d point buffer q,
    bufferAt (Device.answer d (.bindBuffer point buffer)).2 q =
      if q = point then some buffer else bufferAt d q
  bufferAt_bindBlock : ∀ d h index point,
    bufferAt (Device.answer d (.bindBlock h index point)).2 = bufferAt d
  bufferAt_blockIndex : ∀ d h name, bufferAt (Device.answer d (.blockIndex h name)).2 = bufferAt d
  bufferAt_release : ∀ d, bufferAt (Device.answer d .release).2 = bufferAt d

/-- The buffer that a block of a program reads, through its binding point. -/
def Tables.readBy {σ : Type} [Device σ] (tables : Tables σ) (d : σ) (h : Handle)
    (index : UInt32) : Option UInt32 :=
  (tables.pointOf d h index).bind (tables.bufferAt d)

/-- The last of some names that is registered at a binding point, as registered. -/
def Registry.lastAt (registry : Registry) (names : List String) (point : UInt32) :
    Option UniformBuffer :=
  ((names.filterMap registry.find?).filter fun b => point = b.bindingPoint).getLast?

/-- The block that a call has asked for, and the index it was given. -/
def Call.indexed? : Call → Option (String × Option UInt32)
  | ⟨.blockIndex _ name, answer⟩ => some (name, answer.reply)
  | _ => none

/-- What a bound block was registered as. -/
def BoundBlock.registered (b : BoundBlock) : UniformBuffer :=
  ⟨b.name, b.bindingPoint, b.buffer⟩

section Tables

variable {σ : Type} [Device σ]

/-- A slot holds what the last block that wrote it has written. -/
theorem last_writer {α : Type} (view : σ → Option α) {writes : BoundBlock → Bool}
    {value : BoundBlock → α} {h : Handle}
    (step : ∀ d (b : BoundBlock), view (Device.after d (b.requests h)) =
      if writes b then some (value b) else view d) (d : σ) (blocks : List BoundBlock) :
    view (Device.after d (blocks.flatMap (BoundBlock.requests h))) =
      ((blocks.filter writes).getLast?.map value).or (view d) := by
  -- The last block comes last, so the induction is from the back.
  -- A write of the new block wins, and without one the earlier blocks decide.
  induction blocks using List.reverseRecOn with
  | nil => rfl
  | append_singleton blocks b ih =>
      rw [List.flatMap_append, List.flatMap_singleton, Device.after_append, step, ih,
        List.filter_append]
      cases written : writes b with
      | true => simp [written]
      | false => simp [written]

namespace Tables

variable (tables : Tables σ) (d : σ) (h : Handle) (blocks : List BoundBlock)

theorem pointOf_blocks (index : UInt32) :
    tables.pointOf (Device.after d (blocks.flatMap (BoundBlock.requests h))) h index =
      ((blocks.filter fun b => index = b.index).getLast?.map BoundBlock.bindingPoint).or
        (tables.pointOf d h index) := by
  refine last_writer (fun d => tables.pointOf d h index) (fun d b => ?_) d blocks
  simp only [BoundBlock.requests, Device.after, tables.pointOf_bindBlock,
    tables.pointOf_bindBuffer, tables.pointOf_blockIndex, true_and, decide_eq_true_eq]

theorem bufferAt_blocks (point : UInt32) :
    tables.bufferAt (Device.after d (blocks.flatMap (BoundBlock.requests h))) point =
      ((blocks.filter fun b => point = b.bindingPoint).getLast?.map BoundBlock.buffer).or
        (tables.bufferAt d point) := by
  refine last_writer (fun d => tables.bufferAt d point) (fun d b => ?_) d blocks
  simp only [BoundBlock.requests, Device.after, tables.bufferAt_bindBlock,
    tables.bufferAt_bindBuffer, tables.bufferAt_blockIndex, decide_eq_true_eq]

end Tables

end Tables

section Last

variable {blocks : List BoundBlock}

/-- Of bound blocks that are as registered, the last at a binding point is the last
    of their names that is registered there. -/
theorem lastAt_blocks {registry : Registry}
    (found : ∀ b ∈ blocks, registry.find? b.name = some b.registered) (point : UInt32) :
    registry.lastAt (blocks.map BoundBlock.name) point =
      (blocks.filter fun b => point = b.bindingPoint).getLast?.map BoundBlock.registered := by
  have registered : (blocks.map BoundBlock.name).filterMap registry.find? =
      blocks.map BoundBlock.registered := by
    rw [List.filterMap_map, ← List.filterMap_eq_map]
    exact List.filterMap_congr found
  rw [Registry.lastAt, registered, List.filter_map, List.getLast?_map]
  rfl

theorem exists_last (writes : BoundBlock → Bool) {b : BoundBlock} (mem : b ∈ blocks)
    (writes_b : writes b = true) :
    ∃ c, (blocks.filter writes).getLast? = some c ∧ c ∈ blocks ∧ writes c = true := by
  have some : b ∈ blocks.filter writes := List.mem_filter.mpr ⟨mem, writes_b⟩
  cases last : (blocks.filter writes).getLast? with
  | none => exact absurd (List.getLast?_eq_none_iff.mp last) (List.ne_nil_of_mem some)
  | some c => exact ⟨c, rfl, List.mem_filter.mp (List.mem_of_getLast? last)⟩

end Last

namespace Program

open Operation

variable {σ : Type} [Device σ] {registry : Registry} {p : Program} {shared : Shared σ}

/-- Linking succeeds only by binding every block that was asked for. -/
theorem bound_of_link (calm : Device.Calm shared.device) (asks : p.autoresolve ≠ [])
    (ok : (run (link registry) (Session.start p shared)).1 = .ok ()) :
    ∃ blocks, LongestBound registry p.handle
        (Device.after shared.device [.link p.handle, .bind p.handle]) p.autoresolve blocks ∧
      blocks.map BoundBlock.name = p.autoresolve ∧
      ComesTo shared (run (link registry) (Session.start p shared)) (.ok ())
        { p with phase := .autoresolveBound, bound := blocks }
        (.link p.handle :: bindingRequests p.handle blocks none) := by
  -- Every other way that linking can go is a failure.
  have fits : p.phase.canLink = true := by
    by_contra unfit
    have refused : (run (link registry) (Session.start p shared)).1 =
        .error (.failed (.invalidState (Refusal.cannotLink.message p))) :=
      (require_comesTo (Bool.eq_false_iff.mpr unfit)).outcome
    rw [ok] at refused
    cases refused
  have free : shared.poisoned = false := by
    cases poisoned : shared.poisoned with
    | false => rfl
    | true =>
        obtain ⟨failure, log, fails⟩ := fails_link (s := Session.start p shared) poisoned registry
        rw [run, fails] at ok
        cases ok
  cases reply : (Device.answer shared.device (.link p.handle)).1.reply with
  | error e =>
      have refused : (run (link registry) (Session.start p shared)).1 = .error (.failed e) :=
        (link_refused free calm fits reply).outcome
      rw [ok] at refused
      cases refused
  | ok done =>
      obtain ⟨blocks, longest, ends⟩ := link_bound free calm registry fits reply asks
      cases stopped : p.autoresolve[blocks.length]? with
      | none =>
          rw [stopped] at ends
          exact ⟨blocks, longest, map_name_of_all longest stopped, ends⟩
      | some name =>
          rw [stopped] at ends
          have failed := ends.outcome
          rw [ok] at failed
          cases failed

/-- The index of a block that was bound has been asked for. -/
theorem indexed_of_bound (d : σ) (h : Handle) {blocks before rest : List BoundBlock}
    {b : BoundBlock} (split : blocks = before ++ b :: rest) :
    ∃ call ∈ Device.journal d (.link h :: bindingRequests h blocks none),
      call.indexed? =
        some (b.name, indexAfter (Device.after d [.link h, .bind h]) h before b.name) := by
  have requests : ∃ later, Request.link h :: bindingRequests h blocks none =
      ([.link h, .bind h] ++ before.flatMap (BoundBlock.requests h)) ++
        .blockIndex h b.name :: later := by
    rw [split, bindingRequests, List.flatMap_append, List.flatMap_cons, BoundBlock.requests]
    exact ⟨_, by simp only [List.append_assoc, List.cons_append, List.nil_append]; rfl⟩
  obtain ⟨later, requests⟩ := requests
  rw [requests, Device.journal_append]
  refine ⟨_, List.mem_append_right _ List.mem_cons_self, ?_⟩
  rw [Device.after_append]
  rfl

end Program

namespace Tables

variable {σ : Type} [Device σ] {tables : Tables σ} {d : σ} {h : Handle} {registry : Registry}
  {names : List String} {indexOf : String → Option UInt32}

/-- The tables once some names have been bound: the block of a name reads from the
    binding point that the name is registered for, and there is the buffer of the
    last name that is registered there. -/
def Filled (tables : Tables σ) (d : σ) (h : Handle) (registry : Registry) (names : List String)
    (indexOf : String → Option UInt32) : Prop :=
  ∀ name ∈ names, ∃ index b last, indexOf name = some index ∧ registry.find? name = some b ∧
    tables.pointOf d h index = some b.bindingPoint ∧
    registry.lastAt names b.bindingPoint = some last ∧
    tables.bufferAt d b.bindingPoint = some last.buffer

theorem Filled.release (filled : tables.Filled d h registry names indexOf) :
    tables.Filled (Device.after d [.release]) h registry names indexOf := by
  have points : tables.pointOf (Device.after d [.release]) = tables.pointOf d :=
    tables.pointOf_release d
  have buffers : tables.bufferAt (Device.after d [.release]) = tables.bufferAt d :=
    tables.bufferAt_release d
  rw [Filled, points, buffers]
  exact filled

/-- Every name has its own buffer read, if no two are registered at one binding
    point with different buffers, and only then. -/
theorem Filled.own_iff (filled : tables.Filled d h registry names indexOf) :
    (∀ name ∈ names, ∃ index b, indexOf name = some index ∧ registry.find? name = some b ∧
      tables.readBy d h index = some b.buffer) ↔
    ∀ name ∈ names, ∀ other ∈ names, ∀ b c, registry.find? name = some b →
      registry.find? other = some c → b.bindingPoint = c.bindingPoint → b.buffer = c.buffer := by
  constructor
  · intro own
    -- Both read what is at the binding point, and each reads its own.
    have at_point : ∀ name ∈ names, ∀ b, registry.find? name = some b →
        tables.bufferAt d b.bindingPoint = some b.buffer := by
      intro name hname b hb
      obtain ⟨index, b', last, hindex, hb', hpoint, -, -⟩ := filled name hname
      obtain ⟨index', b'', hindex', hb'', hread⟩ := own name hname
      obtain rfl : b' = b := Option.some.inj (hb'.symm.trans hb)
      obtain rfl : b'' = b' := Option.some.inj (hb''.symm.trans hb')
      obtain rfl : index' = index := Option.some.inj (hindex'.symm.trans hindex)
      rwa [readBy, hpoint] at hread
    intro name hname other hother b c hb hc same
    have left := at_point name hname b hb
    rw [same, at_point other hother c hc] at left
    exact (Option.some.inj left).symm
  · intro agree name hname
    -- The last writer of the binding point is registered there too, so the two agree.
    obtain ⟨index, b, last, hindex, hb, hpoint, hlast, hbuffer⟩ := filled name hname
    refine ⟨index, b, hindex, hb, ?_⟩
    obtain ⟨hmem, hsame⟩ := List.mem_filter.mp (List.mem_of_getLast? hlast)
    obtain ⟨other, hother, hfound⟩ := List.mem_filterMap.mp hmem
    rw [readBy, hpoint, Option.bind_some, hbuffer,
      agree name hname other hother b last hb hfound (of_decide_eq_true hsame)]

/-- Blocks that are bound as registered, under indices of their own, fill the
    tables. -/
theorem filled_of_blocks {blocks : List BoundBlock}
    (distinct : ∀ a b index, indexOf a = some index → indexOf b = some index → a = b)
    (found : ∀ b ∈ blocks, indexOf b.name = some b.index ∧
      registry.find? b.name = some b.registered) :
    tables.Filled (Device.after d (blocks.flatMap (BoundBlock.requests h))) h registry
      (blocks.map BoundBlock.name) indexOf := by
  intro name hname
  obtain ⟨b, hb, rfl⟩ := List.mem_map.mp hname
  obtain ⟨hindex, hregistered⟩ := found b hb
  -- Some block of the list has the index and some has the binding point: this one.
  obtain ⟨c, hc, hcmem, hcindex⟩ :=
    exists_last (fun c => b.index = c.index) hb (decide_eq_true rfl)
  obtain ⟨e, he, -, hepoint⟩ :=
    exists_last (fun c => b.bindingPoint = c.bindingPoint) hb (decide_eq_true rfl)
  refine ⟨b.index, b.registered, e.registered, hindex, hregistered, ?_, ?_, ?_⟩
  · -- The last block with the index of this one has its name, and so its binding point.
    obtain ⟨hcindexOf, hcregistered⟩ := found c hcmem
    have hsame : c.name = b.name :=
      distinct _ _ _ hcindexOf (hindex.trans (congrArg some (of_decide_eq_true hcindex)))
    rw [hsame, hregistered, Option.some.injEq] at hcregistered
    rw [pointOf_blocks, hc, Option.map_some, Option.some_or]
    exact congrArg (some ·.bindingPoint) hcregistered.symm
  · rw [lastAt_blocks fun b hb => (found b hb).2]
    exact congrArg (Option.map _) he
  · rw [bufferAt_blocks]
    exact congrArg (fun last : Option BoundBlock => (last.map BoundBlock.buffer).or _) he

end Tables

namespace Program

open Operation

variable {σ : Type} [Device σ]

/-- The tables after a successful linking, on a device that answers alike about a
    name whenever it is asked for it, and differently about different names. Every
    name that was asked for has its block read from its binding point, where the
    last of them has put its buffer; so all of them have their own buffers read if
    and only if no two are registered at one binding point with different buffers. -/
theorem link_fills_tables (tables : Tables σ) (registry : Registry) (p : Program)
    (shared : Shared σ) (asks : p.autoresolve ≠ [])
    (ok : (run (link registry) (Session.start p shared)).1 = .ok ())
    {indexOf : String → Option UInt32}
    (distinct : ∀ a b index, indexOf a = some index → indexOf b = some index → a = b)
    (fixed : ∀ call ∈ (run (link registry) (Session.start p shared)).2.calls, ∀ name index,
      call.indexed? = some (name, index) → index = indexOf name) :
    let d := (run (link registry) (Session.start p shared)).2.shared.device
    tables.Filled d p.handle registry p.autoresolve indexOf ∧
    ((∀ name ∈ p.autoresolve, ∃ index b, indexOf name = some index ∧
        registry.find? name = some b ∧ tables.readBy d p.handle index = some b.buffer) ↔
      ∀ name ∈ p.autoresolve, ∀ other ∈ p.autoresolve, ∀ b c, registry.find? name = some b →
        registry.find? other = some c → b.bindingPoint = c.bindingPoint →
        b.buffer = c.buffer) := by
  intro d
  -- The device may crash in general, but did not, so it answered like a calm one.
  have filled : tables.Filled d p.handle registry p.autoresolve indexOf := by
    let calmed : Shared (Calmed σ) := ⟨⟨shared.device⟩, shared.poisoned⟩
    have same : run (link registry) (Session.start p calmed) = (_, _) :=
      agrees_link registry (Session.start p shared) (by rw [ok]; exact nofun)
    obtain ⟨blocks, longest, names, ends⟩ :=
      bound_of_link (Calmed.calm calmed.device) asks ((congrArg Prod.fst same).trans ok)
    rw [same] at ends
    have device : d = Device.after shared.device
        (.link p.handle :: bindingRequests p.handle blocks none) := by
      rw [← Calmed.device_after calmed.device]
      exact congrArg (fun s : Shared (Calmed σ) => s.device.device) ends.shared
    -- Each block was asked for when its turn came, and the answer was its index.
    have found : ∀ b ∈ blocks, indexOf b.name = some b.index ∧
        registry.find? b.name = some b.registered := by
      intro b hb
      obtain ⟨before, rest, split⟩ := List.append_of_mem hb
      obtain ⟨hindex, hregistered⟩ := longest.bound before b rest split
      obtain ⟨call, made, asked⟩ := indexed_of_bound calmed.device p.handle split
      rw [← ends.calls] at made
      exact ⟨(fixed call made _ _ asked).symm.trans hindex, hregistered⟩
    -- What the requests do is done by those that bind the blocks.
    have requests : Request.link p.handle :: bindingRequests p.handle blocks none =
        [.link p.handle, .bind p.handle] ++ blocks.flatMap (BoundBlock.requests p.handle) ++
          [.release] := by
      simp only [bindingRequests, Option.toList_none, List.map_nil, List.append_nil,
        List.cons_append, List.nil_append]
    rw [device, requests, Device.after_append, Device.after_append, ← names]
    exact (Tables.filled_of_blocks distinct found).release
  exact ⟨filled, filled.own_iff⟩

end Program

/-- A scripted device with tables. -/
structure Tabled where
  scripted : Scripted
  points : Handle → UInt32 → Option UInt32
  buffers : UInt32 → Option UInt32

namespace Tabled

instance : Device Tabled where
  answer d r :=
    let answered := Device.answer d.scripted r
    (answered.1, match r with
      | .bindBlock h index point =>
        { d with points := fun k i => if k = h ∧ i = index then some point else d.points k i }
      | .bindBuffer point buffer =>
        { d with buffers := fun q => if q = point then some buffer else d.buffers q }
      | _ => { d with scripted := answered.2 })

/-- The tables of a device that has them. -/
def tables : Tables Tabled where
  pointOf := points
  bufferAt := buffers
  pointOf_bindBlock := fun _ _ _ _ _ _ => rfl
  pointOf_bindBuffer := fun _ _ _ => rfl
  pointOf_blockIndex := fun _ _ _ => rfl
  pointOf_release := fun _ => rfl
  bufferAt_bindBuffer := fun _ _ _ _ => rfl
  bufferAt_bindBlock := fun _ _ _ _ => rfl
  bufferAt_blockIndex := fun _ _ _ => rfl
  bufferAt_release := fun _ => rfl

end Tabled

namespace Program

open Operation

/-- Two blocks are registered at one binding point, so one of them does not read
    its own buffer. -/
theorem link_fills_tables_shared_point :
    let p : Program := ⟨1, .compiled, [], ["Camera", "Lights"], []⟩
    let registry : Registry :=
      ⟨[("Camera", ⟨"Camera", 2, 7⟩), ("Lights", ⟨"Lights", 2, 9⟩)], by decide, by decide⟩
    let scripted : Scripted := { blocks := [("Camera", 0), ("Lights", 1)] }
    let shared : Shared Tabled := ⟨⟨scripted, fun _ _ => none, fun _ => none⟩, false⟩
    let indexOf : String → Option UInt32 := fun name =>
      if name = "Camera" then some 0 else if name = "Lights" then some 1 else none
    let d := (run (link registry) (Session.start p shared)).2.shared.device
    Tabled.tables.Filled d 1 registry ["Camera", "Lights"] indexOf ∧
      Tabled.tables.readBy d 1 0 = some 9 ∧
      ¬ ∀ name ∈ ["Camera", "Lights"], ∃ index b, indexOf name = some index ∧
        registry.find? name = some b ∧ Tabled.tables.readBy d 1 index = some b.buffer := by
  intro p registry scripted shared indexOf d
  have succeeds : (run (link registry) (Session.start p shared)).1.isOk = true := by decide +kernel
  have ok : (run (link registry) (Session.start p shared)).1 = .ok () := by
    cases outcome : (run (link registry) (Session.start p shared)).1 with
    | ok done => rfl
    | error stop =>
        rw [outcome] at succeeds
        cases succeeds
  have asked : (run (link registry) (Session.start p shared)).2.calls.filterMap Call.indexed? =
      [("Camera", some 0), ("Lights", some 1)] := by decide +kernel
  have distinct : ∀ a b index, indexOf a = some index → indexOf b = some index → a = b := by
    intro a b index ha hb
    simp only [indexOf] at ha hb
    grind
  have fixed : ∀ call ∈ (run (link registry) (Session.start p shared)).2.calls, ∀ name index,
      call.indexed? = some (name, index) → index = indexOf name := by
    intro call made name index answered
    have answer := List.mem_filterMap.mpr ⟨call, made, answered⟩
    rw [asked] at answer
    simp only [List.mem_cons, Prod.mk.injEq, List.not_mem_nil, or_false] at answer
    rcases answer with ⟨rfl, rfl⟩ | ⟨rfl, rfl⟩
    · rfl
    · rfl
  obtain ⟨filled, own⟩ :=
    link_fills_tables Tabled.tables registry p shared (List.cons_ne_nil _ _) ok distinct fixed
  have camera : registry.find? "Camera" = some ⟨"Camera", 2, 7⟩ := by decide +kernel
  have lights : registry.find? "Lights" = some ⟨"Lights", 2, 9⟩ := by decide +kernel
  have read : Tabled.tables.readBy d 1 0 = some 9 := by decide +kernel
  refine ⟨filled, read, fun every => ?_⟩
  have agree := own.mp every "Camera" (by decide) "Lights" (by decide) _ _ camera lights rfl
  exact absurd agree (by decide)

end Program

end ShaderBuild
