/-
**Executors and their processes** (`Executor::spawn`, `signal`, `__on_exit`, `~Executor`).

The handles of all processes come from `process_allocator`, and `__on_exit` knows no more than a handle,
in which `data` is the address of an executor or null. An executor may be deleted while its process
runs, and another one may get its address.

`Processes.run_heard`: as long as no executor is asked to start a process while one of its own runs,
every exit is reported to the executor that has started the process, or to nobody if that one is gone;
signals reach only one's own process; and the handles in use are exactly those of the executors and of
the processes that still run.
-/

import GemCaps.Memory.Footprint
import Mathlib.Logic.Function.Basic

namespace GemCaps

open Transition

/-- The part of an `Executor` that its processes change. -/
structure ProcessOwner (Pointer : Type) where
  /-- The number of the constructor call that made it. -/
  number : Nat
  process : Option Pointer := none
  alive : Bool := false

/-- A process that runs: the handle by which libuv knows it, and the executor that started it. -/
structure Child (Pointer : Type) where
  handle : Pointer
  number : Nat
deriving DecidableEq

/-- The executors of the program, and the processes that libuv watches. -/
structure Processes (Pointer Address : Type) where
  pool : Pool Pointer
  /-- `uv_process_t::data`. -/
  data : Pointer → Option Address := fun _ => none
  executors : Address → Option (ProcessOwner Pointer) := fun _ => none
  children : List (Child Pointer) := []
  made : Nat := 0
  /-- The exits that came, with the executor to which each was reported. -/
  reports : List (Nat × Option Nat) := []
  /-- The signals that executors have sent, with the executor whose process got each. -/
  signals : List (Nat × Option Nat) := []
  /-- `__on_exit` has used an executor that is gone. -/
  dangling : Bool := false

/-- What happens to executors and processes. -/
inductive ProcessEvent (Pointer Address : Type) where
  | create (address : Address)
  /-- `spawn`, with the result of `uv_spawn`; `iteration` and `chunk` are for `allocate`. -/
  | spawn (address : Address) (iteration : Iteration (Pointer × List Pointer)) (chunk : Pointer)
      (result : Int)
  | signal (address : Address)
  | exited (child : Child Pointer)
  | destroy (address : Address)

namespace Processes

section Operations

variable {Pointer Address : Type} [DecidableEq Pointer] [DecidableEq Address]
  (itemAt : Pointer → Nat → Pointer) (allocSize : Nat) (stack : Pointer)
  (processes : Processes Pointer Address)

/-- The program before the first executor. -/
def start : Processes Pointer Address := { pool := Pool.create itemAt allocSize stack }

/-- `Executor::Executor`. -/
def create (address : Address) : Processes Pointer Address :=
  { processes with
    executors := Function.update processes.executors address (some { number := processes.made })
    made := processes.made + 1 }

/-- `Executor::signal`: `uv_process_kill` signals the process of the handle. -/
def signal (owner : ProcessOwner Pointer) : Processes Pointer Address :=
  match owner.alive, owner.process with
  | true, some handle =>
    { processes with
      signals := processes.signals ++
        [(owner.number, (processes.children.find? (·.handle = handle)).map Child.number)] }
  | _, _ => processes

/-- The end of `spawn`, with the handle. -/
def launch (address : Address) (owner : ProcessOwner Pointer) (handle : Pointer) (result : Int) :
    Processes Pointer Address :=
  { processes with
    data := Function.update processes.data handle (some address)
    executors := Function.update processes.executors address
      (some { owner with process := some handle, alive := result = 0 })
    children :=
      if result = 0 then processes.children ++ [⟨handle, owner.number⟩] else processes.children }

/-- `Executor::spawn`. -/
def spawn (address : Address) (owner : ProcessOwner Pointer)
    (iteration : Iteration (Pointer × List Pointer)) (chunk : Pointer) (result : Int) :
    Option (Processes Pointer Address) :=
  match owner.process with
  | none =>
    if (processes.pool.take iteration).isNone →
        processes.pool.Fresh itemAt allocSize stack chunk then
      (processes.pool.allocate itemAt allocSize iteration chunk).map fun both =>
        { processes with pool := both.2 }.launch address owner both.1 result
    else none
  | some handle => some ((processes.signal owner).launch address owner handle result)

/-- `Executor::__on_exit`; the executor's own `onExit` comes after it. -/
def exited (child : Child Pointer) : Processes Pointer Address :=
  let rest := { processes with children := processes.children.erase child }
  match processes.data child.handle with
  | none =>
    { rest with
      pool := processes.pool.deallocate allocSize child.handle
      reports := processes.reports ++ [(child.number, none)] }
  | some address =>
    match processes.executors address with
    | none => { rest with dangling := true }
    | some owner =>
      { rest with
        executors := Function.update processes.executors address (some { owner with alive := false })
        reports := processes.reports ++ [(child.number, some owner.number)] }

/-- `Executor::~Executor`. -/
def destroy (address : Address) (owner : ProcessOwner Pointer) : Processes Pointer Address :=
  let gone := { processes with executors := Function.update processes.executors address none }
  match owner.alive, owner.process with
  | true, some handle => { gone with data := Function.update processes.data handle none }.signal owner
  | false, some handle => { gone with pool := processes.pool.deallocate allocSize handle }
  | _, none => gone

/-- One event; `none` where it cannot come. -/
def step (event : ProcessEvent Pointer Address) : Option (Processes Pointer Address) :=
  if processes.dangling then none
  else match event with
    | .create address =>
      if (processes.executors address).isNone then some (processes.create address) else none
    | .spawn address iteration chunk result =>
      (processes.executors address).bind fun owner =>
        processes.spawn itemAt allocSize stack address owner iteration chunk result
    | .signal address => (processes.executors address).map processes.signal
    | .exited child =>
      if child ∈ processes.children then some (processes.exited allocSize child) else none
    | .destroy address => (processes.executors address).map (processes.destroy allocSize address)

/-- No process is started by an executor whose process runs. -/
def Orderly (event : ProcessEvent Pointer Address) : Prop :=
  match event with
  | .spawn address _ _ _ => ∀ owner ∈ processes.executors address, owner.alive = false
  | .create _ | .signal _ | .exited _ | .destroy _ => True

instance : (event : ProcessEvent Pointer Address) → Decidable (processes.Orderly event)
  | .spawn _ _ _ _ => inferInstanceAs (Decidable (∀ _ ∈ _, _))
  | .create _ | .signal _ | .exited _ | .destroy _ => inferInstanceAs (Decidable True)

end Operations

/-! ### The invariant -/

section Invariant

variable {Pointer Address : Type} [DecidableEq Pointer] [DecidableEq Address]
  (itemAt : Pointer → Nat → Pointer) (allocSize : Nat) (stack : Pointer)

/-- The executor with this number is gone. -/
def Gone (executors : Address → Option (ProcessOwner Pointer)) (number : Nat) : Prop :=
  ∀ address owner, executors address = some owner → owner.number ≠ number

/-- The executor that has started a process runs it, or is gone and no longer in its handle. -/
def Watched (processes : Processes Pointer Address) (child : Child Pointer) : Prop :=
  (processes.data child.handle = none ∧ Gone processes.executors child.number) ∨
    ∃ address owner, processes.executors address = some owner ∧
      owner.process = some child.handle ∧ owner.number = child.number ∧ owner.alive = true

/-- The invariant. -/
structure Kept (processes : Processes Pointer Address) : Prop where
  sound : processes.pool.Sound itemAt allocSize stack
  intact : processes.dangling = false
  numbers : ∀ address owner, processes.executors address = some owner →
    owner.number < processes.made
  apart : ∀ address other owner otherOwner, processes.executors address = some owner →
    processes.executors other = some otherOwner → owner.number = otherOwner.number →
      address = other
  owned : ∀ address owner handle, processes.executors address = some owner →
    owner.process = some handle →
      handle ∈ processes.pool.inUse ∧ processes.data handle = some address
  runs : ∀ address owner, processes.executors address = some owner → owner.alive = true →
    ∃ child ∈ processes.children, owner.process = some child.handle
  children : ∀ child ∈ processes.children, child.handle ∈ processes.pool.inUse ∧
    child.number < processes.made ∧ processes.Watched child
  distinct : (processes.children.map Child.handle).Nodup
  complete : ∀ handle ∈ processes.pool.inUse,
    (∃ address owner, processes.executors address = some owner ∧ owner.process = some handle) ∨
      ∃ child ∈ processes.children, child.handle = handle
  reports : ∀ report ∈ processes.reports, report.1 < processes.made ∧
    (report.2 = some report.1 ∨ report.2 = none ∧ Gone processes.executors report.1)
  signals : ∀ sent ∈ processes.signals, sent.2 = some sent.1

variable {itemAt allocSize stack} {processes next : Processes Pointer Address} {address : Address}
  {owner : ProcessOwner Pointer} {handle : Pointer} {child : Child Pointer}

omit [DecidableEq Pointer] in
/-- The executors after one of them has changed. -/
theorem update_cases {executors : Address → Option (ProcessOwner Pointer)}
    {new found : ProcessOwner Pointer} {other : Address}
    (isFound : Function.update executors address (some new) other = some found) :
    other = address ∧ found = new ∨ other ≠ address ∧ executors other = some found := by
  by_cases same : other = address
  · rw [same, Function.update_self] at isFound
    exact .inl ⟨same, (Option.some.inj isFound).symm⟩
  · rw [Function.update_of_ne same] at isFound
    exact .inr ⟨same, isFound⟩

omit [DecidableEq Pointer] in
/-- Who is gone stays so when an executor changes. -/
theorem Gone.update {executors : Address → Option (ProcessOwner Pointer)}
    {new : ProcessOwner Pointer} {number : Nat} (gone : Gone executors number)
    (isOwner : executors address = some owner) (same : new.number = owner.number) :
    Gone (Function.update executors address (some new)) number := by
  intro other found isFound
  rcases update_cases isFound with ⟨_, rfl⟩ | ⟨_, isFound⟩
  · exact same ▸ gone address owner isOwner
  · exact gone other found isFound

namespace Kept

omit [DecidableEq Address] in
/-- The process in the handle of an executor is its own. -/
theorem child_of (kept : processes.Kept itemAt allocSize stack)
    (isOwner : processes.executors address = some owner) (inside : child ∈ processes.children)
    (isHandle : owner.process = some child.handle) :
    child.number = owner.number ∧ owner.alive = true := by
  have isData := (kept.owned address owner _ isOwner isHandle).2
  rcases (kept.children child inside).2.2 with ⟨none, _⟩ | ⟨other, found, isFound, process, same, alive⟩
  · rw [isData] at none
    cases none
  · have isOther := (kept.owned other found _ isFound process).2
    obtain rfl := Option.some.inj (isData.symm.trans isOther)
    obtain rfl := Option.some.inj (isOwner.symm.trans isFound)
    exact ⟨same.symm, alive⟩

omit [DecidableEq Address] in
theorem start (distinct : (block itemAt allocSize stack).Nodup) :
    (start itemAt allocSize stack : Processes Pointer Address).Kept itemAt allocSize stack where
  sound := Pool.sound_create distinct
  intact := rfl
  numbers := fun _ _ isOwner => nomatch isOwner
  apart := fun _ _ _ _ isOwner => nomatch isOwner
  owned := fun _ _ _ isOwner => nomatch isOwner
  runs := fun _ _ isOwner => nomatch isOwner
  children := fun _ inside => absurd inside List.not_mem_nil
  distinct := List.nodup_nil
  complete := fun _ inside => absurd inside List.not_mem_nil
  reports := fun _ inside => absurd inside List.not_mem_nil
  signals := fun _ inside => absurd inside List.not_mem_nil

/-! ### The steps -/

theorem create (kept : processes.Kept itemAt allocSize stack)
    (isFree : processes.executors address = none) :
    (processes.create address).Kept itemAt allocSize stack := by
  have still : ∀ other owner, processes.executors other = some owner →
      (processes.create address).executors other = some owner := by
    intro other owner isOwner
    have isOld : other ≠ address := fun same => by
      rw [same, isFree] at isOwner
      cases isOwner
    exact (Function.update_of_ne isOld _ _).trans isOwner
  have gone : ∀ number < processes.made, Gone processes.executors number →
      Gone (processes.create address).executors number := by
    intro number isOld isGone other owner isOwner
    rcases update_cases isOwner with ⟨_, rfl⟩ | ⟨_, wasOwner⟩
    · exact Nat.ne_of_gt isOld
    · exact isGone other owner wasOwner
  refine ⟨kept.sound, kept.intact, ?_, ?_, ?_, ?_, ?_, kept.distinct, ?_, ?_, kept.signals⟩
  · intro other owner isOwner
    rcases update_cases isOwner with ⟨_, rfl⟩ | ⟨_, wasOwner⟩
    · exact Nat.lt_succ_self _
    · exact Nat.lt_succ_of_lt (kept.numbers other owner wasOwner)
  · intro one other owner otherOwner isOwner isOther same
    rcases update_cases isOwner with ⟨isOne, rfl⟩ | ⟨_, wasOwner⟩
    · rcases update_cases isOther with ⟨isTwo, _⟩ | ⟨_, wasOther⟩
      · exact isOne.trans isTwo.symm
      · exact absurd same (Nat.ne_of_gt (kept.numbers other otherOwner wasOther))
    · rcases update_cases isOther with ⟨_, rfl⟩ | ⟨_, wasOther⟩
      · exact absurd same (Nat.ne_of_lt (kept.numbers one owner wasOwner))
      · exact kept.apart one other owner otherOwner wasOwner wasOther same
  · intro other owner handle isOwner process
    rcases update_cases isOwner with ⟨_, rfl⟩ | ⟨_, wasOwner⟩
    · cases process
    · exact kept.owned other owner handle wasOwner process
  · intro other owner isOwner alive
    rcases update_cases isOwner with ⟨_, rfl⟩ | ⟨_, wasOwner⟩
    · cases alive
    · exact kept.runs other owner wasOwner alive
  · intro child inside
    obtain ⟨inUse, isOld, watched⟩ := kept.children child inside
    refine ⟨inUse, Nat.lt_succ_of_lt isOld, ?_⟩
    rcases watched with ⟨noData, isGone⟩ | ⟨other, owner, isOwner, rest⟩
    · exact .inl ⟨noData, gone _ isOld isGone⟩
    · exact .inr ⟨other, owner, still other owner isOwner, rest⟩
  · intro handle inUse
    refine (kept.complete handle inUse).imp_left ?_
    rintro ⟨other, owner, isOwner, process⟩
    exact ⟨other, owner, still other owner isOwner, process⟩
  · intro report inside
    obtain ⟨isOld, told⟩ := kept.reports report inside
    refine ⟨Nat.lt_succ_of_lt isOld, told.imp_right ?_⟩
    exact fun ⟨nobody, isGone⟩ => ⟨nobody, gone _ isOld isGone⟩

omit [DecidableEq Address] in
/-- A signal reaches the executor's own process. -/
theorem signal (kept : processes.Kept itemAt allocSize stack)
    (isOwner : processes.executors address = some owner) :
    (processes.signal owner).Kept itemAt allocSize stack := by
  unfold Processes.signal
  split
  case h_1 handle alive isHandle =>
    obtain ⟨child, inside, process⟩ := kept.runs address owner isOwner alive
    obtain rfl := Option.some.inj (isHandle.symm.trans process)
    have isSome : (processes.children.find? (·.handle = child.handle)).isSome = true :=
      List.find?_isSome.mpr ⟨child, inside, decide_eq_true rfl⟩
    obtain ⟨found, isFound⟩ := Option.isSome_iff_exists.mp isSome
    have same : found.handle = child.handle := by simpa using List.find?_some isFound
    have isOwn := (kept.child_of isOwner (List.mem_of_find?_eq_some isFound)
      (process.trans (congrArg some same.symm))).1
    refine { kept with signals := fun sent isSent => ?_ }
    rcases List.mem_append.mp isSent with old | last
    · exact kept.signals sent old
    · obtain rfl := List.mem_singleton.mp last
      rw [isFound]
      exact congrArg some isOwn
  case h_2 => exact kept

/-- An executor that changes keeps its number. -/
theorem identities_update (kept : processes.Kept itemAt allocSize stack)
    (isOwner : processes.executors address = some owner) {new : ProcessOwner Pointer}
    (isNumber : new.number = owner.number) :
    (∀ other found, Function.update processes.executors address (some new) other = some found →
      found.number < processes.made) ∧
    ∀ one other found otherFound,
      Function.update processes.executors address (some new) one = some found →
      Function.update processes.executors address (some new) other = some otherFound →
      found.number = otherFound.number → one = other := by
  constructor
  · intro other found isFound
    rcases update_cases isFound with ⟨_, rfl⟩ | ⟨_, wasFound⟩
    · exact isNumber ▸ kept.numbers address owner isOwner
    · exact kept.numbers other found wasFound
  · intro one other found otherFound isFound isOther same
    rcases update_cases isFound with ⟨isOne, rfl⟩ | ⟨_, wasFound⟩
    · rcases update_cases isOther with ⟨isTwo, _⟩ | ⟨_, wasOther⟩
      · exact isOne.trans isTwo.symm
      · exact isOne.trans
          (kept.apart address other owner otherFound isOwner wasOther (isNumber.symm.trans same))
    · rcases update_cases isOther with ⟨isTwo, rfl⟩ | ⟨_, wasOther⟩
      · exact (kept.apart one address found owner wasFound isOwner
          (same.trans isNumber)).trans isTwo.symm
      · exact kept.apart one other found otherFound wasFound wasOther same

/-- **`spawn` starts a process in a handle in which none runs.** -/
theorem launch (kept : processes.Kept itemAt allocSize stack)
    (isOwner : processes.executors address = some owner) (dead : owner.alive = false)
    {pool : Pool Pointer} (sound : pool.Sound itemAt allocSize stack)
    (uses : ∀ other, other ∈ pool.inUse ↔ other = handle ∨ other ∈ processes.pool.inUse)
    (isFree : owner.process = some handle ∨
      owner.process = none ∧ handle ∉ processes.pool.inUse) (result : Int) :
    (({ processes with pool } : Processes Pointer Address).launch address owner handle
      result).Kept itemAt allocSize stack := by
  -- No process and no other executor has the handle.
  have noChild : ∀ child ∈ processes.children, child.handle ≠ handle := by
    rintro child inside rfl
    rcases isFree with process | ⟨_, unused⟩
    · rw [(kept.child_of isOwner inside process).2] at dead
      cases dead
    · exact unused (kept.children child inside).1
  have noOwner : ∀ other found, other ≠ address → processes.executors other = some found →
      found.process ≠ some handle := by
    intro other found isOther isFound process
    obtain ⟨inUse, isData⟩ := kept.owned other found handle isFound process
    rcases isFree with own | ⟨_, unused⟩
    · have ownData := (kept.owned address owner handle isOwner own).2
      exact isOther (Option.some.inj (isData.symm.trans ownData))
    · exact unused inUse
  have data : ∀ other, other ≠ handle →
      Function.update processes.data handle (some address) other = processes.data other :=
    fun other isOther => Function.update_of_ne isOther _ _
  have childCases : ∀ child ∈ (if result = 0 then processes.children ++ [⟨handle, owner.number⟩]
      else processes.children), child ∈ processes.children ∨
        result = 0 ∧ child = ⟨handle, owner.number⟩ := by
    intro child inside
    split at inside
    · next started =>
      exact (List.mem_append.mp inside).imp_right fun last => ⟨started, List.mem_singleton.mp last⟩
    · exact .inl inside
  have stays : ∀ child ∈ processes.children, child ∈ (if result = 0 then
      processes.children ++ [⟨handle, owner.number⟩] else processes.children) := by
    intro child isOld
    split
    · exact List.mem_append_left _ isOld
    · exact isOld
  have isNew : ∀ number, Gone processes.executors number →
      Gone (Function.update processes.executors address
        (some { owner with process := some handle, alive := result = 0 })) number :=
    fun number isGone => isGone.update isOwner rfl
  have identities := @identities_update _ _ _ _ itemAt allocSize stack processes address owner kept
    isOwner { owner with process := some handle, alive := result = 0 } rfl
  refine ⟨sound, kept.intact, identities.1, identities.2, ?_, ?_, ?_, ?_, ?_, ?_, kept.signals⟩
  · intro other found slot isFound process
    rcases update_cases isFound with ⟨rfl, rfl⟩ | ⟨isOther, wasFound⟩
    · obtain rfl := Option.some.inj process
      exact ⟨(uses _).mpr (.inl rfl), Function.update_self ..⟩
    · obtain ⟨inUse, isData⟩ := kept.owned other found slot wasFound process
      have isElse : slot ≠ handle := fun same => noOwner other found isOther wasFound (same ▸ process)
      exact ⟨(uses _).mpr (.inr inUse), (data slot isElse).trans isData⟩
  · intro other found isFound alive
    rcases update_cases isFound with ⟨_, rfl⟩ | ⟨_, wasFound⟩
    · refine ⟨⟨handle, owner.number⟩, ?_, rfl⟩
      show _ ∈ if result = 0 then _ else _
      rw [if_pos (of_decide_eq_true alive)]
      exact List.mem_append_right _ List.mem_cons_self
    · obtain ⟨child, isOld, process⟩ := kept.runs other found wasFound alive
      exact ⟨child, stays child isOld, process⟩
  · intro child inside
    rcases childCases child inside with isOld | ⟨started, rfl⟩
    · obtain ⟨inUse, isBelow, watched⟩ := kept.children child isOld
      refine ⟨(uses _).mpr (.inr inUse), isBelow, ?_⟩
      rcases watched with ⟨noData, isGone⟩ | ⟨other, found, isFound, process, same, alive⟩
      · exact .inl ⟨(data _ (noChild child isOld)).trans noData, isNew _ isGone⟩
      · have isOther : other ≠ address := by
          rintro rfl
          obtain rfl := Option.some.inj (isOwner.symm.trans isFound)
          rw [dead] at alive
          cases alive
        exact .inr ⟨other, found, (Function.update_of_ne isOther _ _).trans isFound, process, same,
          alive⟩
    · exact ⟨(uses _).mpr (.inl rfl), kept.numbers address owner isOwner,
        .inr ⟨address, _, Function.update_self .., rfl, rfl, decide_eq_true started⟩⟩
  · show ((if result = 0 then _ else _ : List (Child Pointer)).map Child.handle).Nodup
    split
    · rw [List.map_append]
      refine List.nodup_append'.mpr ⟨kept.distinct, List.nodup_singleton _, ?_⟩
      intro slot isOld isLast
      obtain ⟨child, isChild, rfl⟩ := List.mem_map.mp isOld
      exact noChild child isChild (List.mem_singleton.mp isLast)
    · exact kept.distinct
  · intro slot inUse
    have own : slot = handle → ∃ other found, Function.update processes.executors address
        (some { owner with process := some handle, alive := result = 0 }) other = some found ∧
          found.process = some slot := fun same =>
      ⟨address, _, Function.update_self .., same ▸ rfl⟩
    rcases (uses slot).mp inUse with same | wasUsed
    · exact .inl (own same)
    · rcases kept.complete slot wasUsed with ⟨other, found, isFound, process⟩ | ⟨child, isOld, same⟩
      · by_cases isOther : other = address
        · subst isOther
          obtain rfl := Option.some.inj (isOwner.symm.trans isFound)
          rcases isFree with isHandle | ⟨none, _⟩
          · exact .inl (own (Option.some.inj (process.symm.trans isHandle)))
          · rw [none] at process
            cases process
        · exact .inl ⟨other, found, (Function.update_of_ne isOther _ _).trans isFound, process⟩
      · exact .inr ⟨child, stays child isOld, same⟩
  · intro report inside
    obtain ⟨isBelow, told⟩ := kept.reports report inside
    exact ⟨isBelow, told.imp_right fun ⟨nobody, isGone⟩ => ⟨nobody, isNew _ isGone⟩⟩

omit [DecidableEq Address] in
/-- The other processes when one has ended. -/
theorem of_mem_erase (kept : processes.Kept itemAt allocSize stack)
    (inside : child ∈ processes.children) {other : Child Pointer}
    (remains : other ∈ processes.children.erase child) :
    other ∈ processes.children ∧ other.handle ≠ child.handle := by
  refine ⟨List.mem_of_mem_erase remains, fun same => ?_⟩
  have split := (List.perm_cons_erase inside).map Child.handle
  have distinct := (List.nodup_cons.mp (split.nodup_iff.mp kept.distinct)).1
  exact distinct (same ▸ List.mem_map_of_mem remains)

/-- **An exit is reported to the executor that has started the process**, or to nobody if that one is
gone. -/
theorem exited (kept : processes.Kept itemAt allocSize stack) (inside : child ∈ processes.children) :
    (processes.exited allocSize child).Kept itemAt allocSize stack := by
  obtain ⟨inUse, isBelow, watched⟩ := kept.children child inside
  have distinct : ((processes.children.erase child).map Child.handle).Nodup :=
    kept.distinct.sublist (List.erase_sublist.map _)
  have remains : ∀ other ∈ processes.children, other.handle ≠ child.handle →
      other ∈ processes.children.erase child := fun other isOld isOther =>
    (List.mem_erase_of_ne fun same => isOther (congrArg Child.handle same)).mpr isOld
  unfold Processes.exited
  rcases watched with ⟨noData, isGone⟩ | ⟨address, owner, isOwner, process, same, alive⟩
  · simp only [noData]
    have uses := kept.sound.inUse_deallocate_iff child.handle
    refine ⟨(kept.sound.deallocate child.handle).sound, kept.intact, kept.numbers, kept.apart, ?_, ?_,
      ?_, distinct, ?_, ?_, kept.signals⟩
    · intro address owner handle isOwner process
      obtain ⟨isUsed, isData⟩ := kept.owned address owner handle isOwner process
      refine ⟨(uses handle).mpr ⟨fun same => ?_, isUsed⟩, isData⟩
      rw [same, noData] at isData
      cases isData
    · intro address owner isOwner alive
      obtain ⟨other, isOld, process⟩ := kept.runs address owner isOwner alive
      have isData := (kept.owned address owner _ isOwner process).2
      refine ⟨other, remains other isOld fun same => ?_, process⟩
      rw [same, noData] at isData
      cases isData
    · intro other isOther
      obtain ⟨isOld, apart⟩ := kept.of_mem_erase inside isOther
      obtain ⟨isUsed, rest⟩ := kept.children other isOld
      exact ⟨(uses _).mpr ⟨apart, isUsed⟩, rest⟩
    · intro handle isUsed
      obtain ⟨apart, wasUsed⟩ := (uses handle).mp isUsed
      refine (kept.complete handle wasUsed).imp_right ?_
      rintro ⟨other, isOld, rfl⟩
      exact ⟨other, remains other isOld apart, rfl⟩
    · intro report isReport
      rcases List.mem_append.mp isReport with old | last
      · exact kept.reports report old
      · obtain rfl := List.mem_singleton.mp last
        exact ⟨isBelow, .inr ⟨rfl, isGone⟩⟩
  · have isData := (kept.owned address owner _ isOwner process).2
    simp only [isData, isOwner]
    have stillGone : ∀ number, Gone processes.executors number →
        Gone (Function.update processes.executors address (some { owner with alive := false }))
          number := fun number isGone => isGone.update isOwner rfl
    have identities := @identities_update _ _ _ _ itemAt allocSize stack processes address owner kept
      isOwner { owner with alive := false } rfl
    refine ⟨kept.sound, kept.intact, identities.1, identities.2, ?_, ?_, ?_, distinct, ?_, ?_,
      kept.signals⟩
    · intro other found handle isFound process
      rcases update_cases isFound with ⟨rfl, rfl⟩ | ⟨_, wasFound⟩
      · exact kept.owned _ owner handle isOwner process
      · exact kept.owned other found handle wasFound process
    · intro other found isFound stillAlive
      rcases update_cases isFound with ⟨_, rfl⟩ | ⟨isOther, wasFound⟩
      · cases stillAlive
      · obtain ⟨one, isOld, isHandle⟩ := kept.runs other found wasFound stillAlive
        have otherData := (kept.owned other found _ wasFound isHandle).2
        refine ⟨one, remains one isOld fun same => isOther ?_, isHandle⟩
        rw [same, isData] at otherData
        exact (Option.some.inj otherData).symm
    · intro other isOther
      obtain ⟨isOld, apart⟩ := kept.of_mem_erase inside isOther
      obtain ⟨isUsed, isNumber, watched⟩ := kept.children other isOld
      refine ⟨isUsed, isNumber, ?_⟩
      rcases watched with ⟨noData, isGone⟩ | ⟨place, found, isFound, isHandle, rest⟩
      · exact .inl ⟨noData, stillGone _ isGone⟩
      · have isPlace : place ≠ address := by
          rintro rfl
          obtain rfl := Option.some.inj (isOwner.symm.trans isFound)
          exact apart (Option.some.inj (isHandle.symm.trans process))
        exact .inr ⟨place, found, (Function.update_of_ne isPlace _ _).trans isFound, isHandle, rest⟩
    · intro handle isUsed
      rcases kept.complete handle isUsed with ⟨other, found, isFound, isHandle⟩ | ⟨one, isOld, isHandle⟩
      · by_cases isOther : other = address
        · subst isOther
          obtain rfl := Option.some.inj (isOwner.symm.trans isFound)
          exact .inl ⟨other, _, Function.update_self .., isHandle⟩
        · exact .inl ⟨other, found, (Function.update_of_ne isOther _ _).trans isFound, isHandle⟩
      · by_cases isOwn : one.handle = child.handle
        · exact .inl ⟨address, _, Function.update_self .., by rw [← isHandle, isOwn, ← process]⟩
        · exact .inr ⟨one, remains one isOld isOwn, isHandle⟩
    · intro report isReport
      rcases List.mem_append.mp isReport with old | last
      · obtain ⟨isNumber, told⟩ := kept.reports report old
        exact ⟨isNumber, told.imp_right fun ⟨nobody, isGone⟩ => ⟨nobody, stillGone _ isGone⟩⟩
      · obtain rfl := List.mem_singleton.mp last
        exact ⟨isBelow, .inl (congrArg some same)⟩

omit [DecidableEq Pointer] in
/-- The executors without one of them. -/
theorem executors_without {other : Address} {found : ProcessOwner Pointer}
    (isFound : Function.update processes.executors address none other = some found) :
    other ≠ address ∧ processes.executors other = some found := by
  by_cases same : other = address
  · rw [same, Function.update_self] at isFound
    cases isFound
  · rw [Function.update_of_ne same] at isFound
    exact ⟨same, isFound⟩

/-- An executor goes, and leaves its handle to its process or to the pool. -/
theorem remove (kept : processes.Kept itemAt allocSize stack)
    (isOwner : processes.executors address = some owner) {pool : Pool Pointer}
    {data : Pointer → Option Address} (sound : pool.Sound itemAt allocSize stack)
    (ofOthers : ∀ other ≠ address, ∀ found handle, processes.executors other = some found →
      found.process = some handle → handle ∈ pool.inUse ∧ data handle = some other)
    (ofChildren : ∀ child ∈ processes.children, child.handle ∈ pool.inUse ∧
      data child.handle =
        if owner.process = some child.handle then none else processes.data child.handle)
    (ofPool : ∀ handle ∈ pool.inUse, handle ∈ processes.pool.inUse ∧
      (owner.process = some handle → ∃ child ∈ processes.children, child.handle = handle)) :
    ({ processes with
      executors := Function.update processes.executors address none, pool, data } :
        Processes Pointer Address).Kept itemAt allocSize stack := by
  have stillGone : ∀ number, Gone processes.executors number →
      Gone (Function.update processes.executors address none) number :=
    fun number isGone other found isFound => isGone other found (executors_without isFound).2
  refine ⟨sound, kept.intact, ?_, ?_, ?_, ?_, ?_, kept.distinct, ?_, ?_, kept.signals⟩
  · exact fun other found isFound => kept.numbers other found (executors_without isFound).2
  · exact fun one other found otherFound isFound isOther => kept.apart one other found otherFound
      (executors_without isFound).2 (executors_without isOther).2
  · intro other found handle isFound process
    obtain ⟨isOther, wasFound⟩ := executors_without isFound
    exact ofOthers other isOther found handle wasFound process
  · exact fun other found isFound => kept.runs other found (executors_without isFound).2
  · intro child inside
    obtain ⟨_, isNumber, watched⟩ := kept.children child inside
    obtain ⟨isUsed, isData⟩ := ofChildren child inside
    refine ⟨isUsed, isNumber, ?_⟩
    by_cases own : owner.process = some child.handle
    · rw [if_pos own] at isData
      refine .inl ⟨isData, fun other found isFound same => ?_⟩
      obtain ⟨isOther, wasFound⟩ := executors_without isFound
      have isSame := (kept.child_of isOwner inside own).1
      exact isOther (kept.apart other address found owner wasFound isOwner (same.trans isSame))
    · rw [if_neg own] at isData
      rcases watched with ⟨noData, isGone⟩ | ⟨other, found, isFound, process, rest⟩
      · exact .inl ⟨isData.trans noData, stillGone _ isGone⟩
      · have isOther : other ≠ address := by
          rintro rfl
          obtain rfl := Option.some.inj (isOwner.symm.trans isFound)
          exact own process
        exact .inr ⟨other, found, (Function.update_of_ne isOther _ _).trans isFound, process, rest⟩
  · intro handle isUsed
    obtain ⟨wasUsed, ofOwner⟩ := ofPool handle isUsed
    rcases kept.complete handle wasUsed with ⟨other, found, isFound, process⟩ | hasChild
    · by_cases isOther : other = address
      · subst isOther
        obtain rfl := Option.some.inj (isOwner.symm.trans isFound)
        exact .inr (ofOwner process)
      · exact .inl ⟨other, found, (Function.update_of_ne isOther _ _).trans isFound, process⟩
    · exact .inr hasChild
  · intro report isReport
    obtain ⟨isNumber, told⟩ := kept.reports report isReport
    exact ⟨isNumber, told.imp_right fun ⟨nobody, isGone⟩ => ⟨nobody, stillGone _ isGone⟩⟩

/-- **`~Executor`.** -/
theorem destroy (kept : processes.Kept itemAt allocSize stack)
    (isOwner : processes.executors address = some owner) :
    (processes.destroy allocSize address owner).Kept itemAt allocSize stack := by
  have others : ∀ other ≠ address, ∀ found handle, processes.executors other = some found →
      found.process = some handle → owner.process ≠ some handle := by
    intro other isOther found handle isFound process own
    have isData := (kept.owned other found handle isFound process).2
    exact isOther (Option.some.inj (isData.symm.trans (kept.owned address owner handle isOwner own).2))
  unfold Processes.destroy
  cases alive : owner.alive with
  | true =>
    obtain ⟨child, inside, process⟩ := kept.runs address owner isOwner alive
    have signalled := (kept.signal isOwner).signals
    unfold Processes.signal at signalled ⊢
    simp only [alive, process] at signalled ⊢
    have removed : ({ processes with
        executors := Function.update processes.executors address none
        data := Function.update processes.data child.handle none } :
          Processes Pointer Address).Kept itemAt allocSize stack := by
      refine kept.remove isOwner kept.sound (fun other isOther found handle isFound isHandle => ?_)
        (fun one isOld => ?_) fun handle isUsed => ?_
      · obtain ⟨isUsed, isData⟩ := kept.owned other found handle isFound isHandle
        have isElse : handle ≠ child.handle := fun same =>
          others other isOther found handle isFound isHandle (same ▸ process)
        exact ⟨isUsed, (Function.update_of_ne isElse _ _).trans isData⟩
      · refine ⟨(kept.children one isOld).1, ?_⟩
        by_cases own : one.handle = child.handle
        · rw [own, Function.update_self, if_pos process]
        · have isElse : owner.process ≠ some one.handle := by
            rw [process]
            exact fun same => own (Option.some.inj same).symm
          rw [Function.update_of_ne own, if_neg isElse]
      · exact ⟨isUsed, fun own => ⟨child, inside, Option.some.inj (process.symm.trans own)⟩⟩
    exact { removed with signals := signalled }
  | false =>
    have noChild : ∀ child ∈ processes.children, owner.process ≠ some child.handle := by
      intro child inside own
      rw [(kept.child_of isOwner inside own).2] at alive
      cases alive
    cases process : owner.process with
    | none =>
      refine kept.remove isOwner kept.sound
        (fun other _ found handle isFound isHandle => kept.owned other found handle isFound isHandle)
        (fun one isOld => ⟨(kept.children one isOld).1, (if_neg (noChild one isOld)).symm⟩)
        fun handle isUsed => ⟨isUsed, fun own => ?_⟩
      rw [process] at own
      cases own
    | some handle =>
      have uses := kept.sound.inUse_deallocate_iff handle
      refine kept.remove isOwner (kept.sound.deallocate handle).sound
        (fun other isOther found slot isFound isHandle => ?_) (fun one isOld => ⟨?_, ?_⟩)
        fun slot isUsed => ?_
      · obtain ⟨isUsed, isData⟩ := kept.owned other found slot isFound isHandle
        exact ⟨(uses slot).mpr ⟨fun same => others other isOther found slot isFound isHandle
          (same ▸ process), isUsed⟩, isData⟩
      · exact (uses one.handle).mpr
          ⟨fun same => noChild one isOld (same ▸ process), (kept.children one isOld).1⟩
      · exact (if_neg (noChild one isOld)).symm
      · obtain ⟨apart, wasUsed⟩ := (uses slot).mp isUsed
        exact ⟨wasUsed, fun own => absurd (Option.some.inj (own.symm.trans process)) apart⟩

theorem step (positive : 0 < allocSize) (processes : Processes Pointer Address)
    (event : ProcessEvent Pointer Address) (next : Processes Pointer Address)
    (kept : processes.Kept itemAt allocSize stack) (orderly : processes.Orderly event)
    (stepped : processes.step itemAt allocSize stack event = some next) :
    next.Kept itemAt allocSize stack := by
  unfold Processes.step at stepped
  rw [if_neg (by simp [kept.intact])] at stepped
  cases event with
  | create address =>
    obtain ⟨isFree, same⟩ := Option.ite_none_right_eq_some.mp stepped
    exact Option.some.inj same ▸ kept.create (Option.isNone_iff_eq_none.mp isFree)
  | spawn address iteration chunk result =>
    obtain ⟨owner, isOwner, spawned⟩ := Option.bind_eq_some_iff.mp stepped
    have dead : owner.alive = false := orderly owner isOwner
    unfold Processes.spawn at spawned
    cases process : owner.process with
    | none =>
      simp only [process] at spawned
      obtain ⟨fresh, spawned⟩ := Option.ite_none_right_eq_some.mp spawned
      obtain ⟨⟨item, pool⟩, allocated, rfl⟩ := Option.map_eq_some_iff.mp spawned
      have hands := kept.sound.allocate positive fresh allocated
      exact kept.launch isOwner dead hands.sound
        (kept.sound.inUse_allocate_iff positive fresh allocated)
        (.inr ⟨process, fun isUsed => hands.unused isUsed⟩) result
    | some handle =>
      simp only [process, Option.some.injEq] at spawned
      have quiet : processes.signal owner = processes := by
        unfold Processes.signal
        simp only [dead]
      rw [quiet] at spawned
      obtain ⟨isUsed, _⟩ := kept.owned address owner handle isOwner process
      refine spawned ▸ kept.launch isOwner dead kept.sound (fun other => ?_) (.inl process) result
      exact ⟨.inr, fun told => told.elim (fun same => same ▸ isUsed) id⟩
  | signal address =>
    obtain ⟨owner, isOwner, rfl⟩ := Option.map_eq_some_iff.mp stepped
    exact kept.signal isOwner
  | exited child =>
    obtain ⟨inside, same⟩ := Option.ite_none_right_eq_some.mp stepped
    exact Option.some.inj same ▸ kept.exited inside
  | destroy address =>
    obtain ⟨owner, isOwner, rfl⟩ := Option.map_eq_some_iff.mp stepped
    exact kept.destroy isOwner

end Kept

/-! ### Whole runs -/

/-- **Who hears of a process.** As long as no executor is asked to start a process while one of its
own runs, no executor that is gone is used; an exit is reported to the executor that has started the
process, or to nobody and then that one is gone; a signal reaches the executor's own process; an
executor is alive exactly while its process runs; and the handles in use are exactly those of the
executors and of the processes that run. -/
theorem run_heard (positive : 0 < allocSize) (distinct : (block itemAt allocSize stack).Nodup)
    {events : List (ProcessEvent Pointer Address)} {final : Processes Pointer Address}
    (orderly : Along (Processes.step itemAt allocSize stack) Orderly
      (Processes.start itemAt allocSize stack) events)
    (ran : run (Processes.step itemAt allocSize stack) (Processes.start itemAt allocSize stack)
      events = some final) :
    final.dangling = false ∧
    (∀ report ∈ final.reports,
      report.2 = some report.1 ∨ report.2 = none ∧ Gone final.executors report.1) ∧
    (∀ sent ∈ final.signals, sent.2 = some sent.1) ∧
    (∀ address owner, final.executors address = some owner →
      (owner.alive = true ↔ ∃ child ∈ final.children, child.number = owner.number)) ∧
    ∀ handle, handle ∈ final.pool.inUse ↔
      (∃ address owner, final.executors address = some owner ∧ owner.process = some handle) ∨
        ∃ child ∈ final.children, child.handle = handle := by
  have kept : final.Kept itemAt allocSize stack :=
    run_invariant (Kept itemAt allocSize stack) (Kept.step positive) (Kept.start distinct) orderly ran
  refine ⟨kept.intact, fun report inside => (kept.reports report inside).2, kept.signals,
    fun address owner isOwner => ⟨fun alive => ?_, ?_⟩, fun handle => ⟨kept.complete handle, ?_⟩⟩
  · obtain ⟨child, inside, process⟩ := kept.runs address owner isOwner alive
    exact ⟨child, inside, (kept.child_of isOwner inside process).1⟩
  · rintro ⟨child, inside, same⟩
    rcases (kept.children child inside).2.2 with ⟨_, isGone⟩ | ⟨other, found, isFound, _, isOwn, alive⟩
    · exact absurd same.symm (isGone address owner isOwner)
    · obtain rfl := kept.apart other address found owner isFound isOwner (isOwn.trans same)
      obtain rfl := Option.some.inj (isOwner.symm.trans isFound)
      exact alive
  · rintro (⟨address, owner, isOwner, process⟩ | ⟨child, inside, rfl⟩)
    · exact (kept.owned address owner handle isOwner process).1
    · exact (kept.children child inside).1

end Invariant

/-- An executor goes while its process runs, another one gets its address, and both processes end. -/
def sameAddress : List (ProcessEvent Nat Nat) :=
  [.create 7, .spawn 7 Pool.inOrder 10 0, .signal 7, .destroy 7, .create 7,
    .spawn 7 Pool.inOrder 10 0, .exited ⟨1, 0⟩, .exited ⟨0, 1⟩]

theorem run_heard_sameAddress : ∃ final,
    run (step (· + ·) 2 0) (start (· + ·) 2 0) sameAddress = some final ∧
      final.reports = [(0, none), (1, some 1)] ∧ final.signals = [(0, some 0), (0, some 0)] ∧
      ∀ handle, handle ∈ final.pool.inUse ↔
        (∃ address owner, final.executors address = some owner ∧ owner.process = some handle) ∨
          ∃ child ∈ final.children, child.handle = handle := by
  have orderly : Along (step (· + ·) 2 0) Orderly (start (· + ·) 2 0) sameAddress := by decide
  obtain ⟨final, ran, reports, signals⟩ : ∃ final,
      run (step (· + ·) 2 0) (start (· + ·) 2 0) sameAddress = some final ∧
        final.reports = [(0, none), (1, some 1)] ∧ final.signals = [(0, some 0), (0, some 0)] :=
    ⟨_, rfl, rfl, rfl⟩
  exact ⟨final, ran, reports, signals,
    (run_heard (by decide) (by decide) orderly ran).2.2.2.2⟩

/-- An executor whose process runs fails to start another one. It then gives the handle back while the
first process runs, and the exit finds an executor that is gone. -/
theorem run_restarted : ∃ final,
    run (step (· + ·) 2 0) (start (· + ·) 2 0)
      [.create 7, .spawn 7 Pool.inOrder 10 0, .spawn 7 Pool.inOrder 10 (-2), .destroy 7,
        .exited ⟨1, 0⟩] = some final ∧ final.dangling = true :=
  ⟨_, rfl, rfl⟩

end Processes

end GemCaps
