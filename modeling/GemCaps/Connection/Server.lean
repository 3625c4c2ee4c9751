/-
**`SSLServer`: the TLS context and the listening handle** (`server.cpp`).

`load` makes a context, reads two files into it, and only then replaces the handle; `listen` starts
the handle. Every failure frees what it finds and clears the pointers it knows of. Contexts and
handles are numbered in the order in which they are made, so that a pointer that was kept would be
seen. `run_consistent_iff`: context and handle are present together after every call exactly when no
server that has a handle is loaded again in vain.
-/

import GemCaps.Library.Transition
import Mathlib.Tactic.Common

namespace GemCaps

open Transition

/-- `SSLServer`, with the contexts that were freed and the handles that were closed. -/
structure SSLServer where
  wolfssl : Option Nat := none
  server : Option Nat := none
  freed : List Nat := []
  closed : List Nat := []
  nextContext : Nat := 0
  nextHandle : Nat := 0
deriving DecidableEq

/-- What the calls of wolfSSL and libuv in one `load` return. -/
structure LoadOutcome where
  /-- `wolfSSL_CTX_new` returns a context. -/
  contextNew : Bool
  /-- `SSL_SUCCESS` for the certificate and for the key. -/
  certificate : Bool
  privateKey : Bool
  /-- The result of `uv_tcp_bind`. -/
  bind : Int
deriving DecidableEq

namespace LoadOutcome

/-- The calls that come before the handle is replaced. -/
def prepares (outcome : LoadOutcome) : Bool :=
  outcome.contextNew && outcome.certificate && outcome.privateKey

/-- All the calls. -/
def succeeds (outcome : LoadOutcome) : Bool := outcome.prepares && decide (outcome.bind = 0)

end LoadOutcome

namespace SSLServer

variable (server : SSLServer)

/-- `wolfSSL_CTX_free(wolfssl)`, which ignores a null pointer; the pointer is kept. -/
def freeContext : SSLServer := { server with freed := server.freed ++ server.wolfssl.toList }

/-- `uv_close(server, on_tcp_close)`; the pointer is kept. -/
def closeHandle : SSLServer := { server with closed := server.closed ++ server.server.toList }

/-- `wolfssl = wolfSSL_CTX_new(..)` with a context. -/
def newContext : SSLServer :=
  { server with wolfssl := some server.nextContext, nextContext := server.nextContext + 1 }

/-- `server = tcp_allocator.allocate()` and `uv_tcp_init`. -/
def newHandle : SSLServer :=
  { server with server := some server.nextHandle, nextHandle := server.nextHandle + 1 }

/-- `SSLServer::load`. -/
def load (outcome : LoadOutcome) : SSLServer :=
  let server := if server.wolfssl.isSome then server.freeContext else server
  if outcome.contextNew = false then { server with wolfssl := none }
  else
    let server := server.newContext
    if outcome.certificate = false then { server.freeContext with wolfssl := none }
    else if outcome.privateKey = false then { server.freeContext with wolfssl := none }
    else
      let server := if server.server.isSome then server.closeHandle else server
      let server := server.newHandle
      if outcome.bind ≠ 0 then
        { server.freeContext.closeHandle with wolfssl := none, server := none }
      else server

/-- `SSLServer::listen`, with the result of `uv_listen`; that reads through the pointer, so that
nothing comes after a null pointer. -/
def listen (result : Int) : Option SSLServer :=
  if server.server = none then none
  else if result ≠ 0 then
    some { server.freeContext.closeHandle with wolfssl := none, server := none }
  else some server

/-- `isLoaded()`. -/
def isLoaded : Bool := server.wolfssl.isSome

/-- The context pointer points to a context that was not freed. -/
def HasContext : Prop := ∃ context, server.wolfssl = some context ∧ context ∉ server.freed

/-- The handle pointer points to a handle that was not closed. -/
def HasHandle : Prop := ∃ handle, server.server = some handle ∧ handle ∉ server.closed

/-- Both are present, or both are absent, and `isLoaded()` says which. -/
def Consistent : Prop :=
  (server.HasContext ↔ server.HasHandle) ∧ (server.isLoaded = true ↔ server.HasHandle)

end SSLServer

/-- The calls on a server. -/
inductive ServerEvent where
  | load (outcome : LoadOutcome)
  | listen (result : Int)
deriving DecidableEq

namespace SSLServer

/-- One call. -/
def step (server : SSLServer) : ServerEvent → Option SSLServer
  | .load outcome => some (server.load outcome)
  | .listen result => server.listen result

/-- A server that has a handle is loaded again only with a context, a certificate and a key. -/
def Replaces (server : SSLServer) : ServerEvent → Prop
  | .load outcome => server.server.isSome = true → outcome.prepares = true
  | .listen _ => True

instance (server : SSLServer) : (event : ServerEvent) → Decidable (server.Replaces event)
  | .load _ => inferInstanceAs (Decidable (_ → _))
  | .listen _ => .isTrue trivial

variable {server : SSLServer}

/-! ### No pointer dangles -/

/-- The pointers are null or point to what was made last and is still there. -/
structure Sound (server : SSLServer) : Prop where
  freed : ∀ context ∈ server.freed, context < server.nextContext
  closed : ∀ handle ∈ server.closed, handle < server.nextHandle
  wolfssl : ∀ context ∈ server.wolfssl, context < server.nextContext ∧ context ∉ server.freed
  server : ∀ handle ∈ server.server, handle < server.nextHandle ∧ handle ∉ server.closed

theorem Sound.hasContext_iff (sound : server.Sound) :
    server.HasContext ↔ server.isLoaded = true := by
  unfold HasContext isLoaded
  rw [Option.isSome_iff_exists]
  exact exists_congr fun context => and_iff_left_of_imp fun same => (sound.wolfssl context same).2

theorem Sound.hasHandle_iff (sound : server.Sound) :
    server.HasHandle ↔ server.server.isSome = true := by
  unfold HasHandle
  rw [Option.isSome_iff_exists]
  exact exists_congr fun handle => and_iff_left_of_imp fun same => (sound.server handle same).2

/-- **On a sound server, consistency is about the two pointers.** -/
theorem Sound.consistent_iff (sound : server.Sound) :
    server.Consistent ↔ (server.isLoaded = true ↔ server.server.isSome = true) := by
  rw [Consistent, sound.hasContext_iff, sound.hasHandle_iff]
  exact and_self_iff

/-- The context is freed, and its pointer is overwritten. -/
theorem Sound.dropContext (sound : server.Sound) :
    ({ server.freeContext with wolfssl := none } : SSLServer).Sound := by
  refine ⟨fun context inside => ?_, sound.closed, fun _ same => absurd same (by simp), sound.server⟩
  rcases List.mem_append.mp inside with old | last
  · exact sound.freed context old
  · exact (sound.wolfssl context (Option.mem_toList.mp last)).1

/-- The handle is closed, and its pointer is overwritten. -/
theorem Sound.dropHandle (sound : server.Sound) :
    ({ server.closeHandle with server := none } : SSLServer).Sound := by
  refine ⟨sound.freed, fun handle inside => ?_, sound.wolfssl, fun _ same => absurd same (by simp)⟩
  rcases List.mem_append.mp inside with old | last
  · exact sound.closed handle old
  · exact (sound.server handle (Option.mem_toList.mp last)).1

theorem Sound.dropBoth (sound : server.Sound) :
    ({ server.freeContext.closeHandle with wolfssl := none, server := none } : SSLServer).Sound :=
  sound.dropContext.dropHandle

theorem Sound.newContext (sound : server.Sound) : server.newContext.Sound := by
  refine ⟨fun context inside => ?_, sound.closed, fun context same => ?_, sound.server⟩
  · exact (sound.freed context inside).trans (Nat.lt_succ_self _)
  · obtain rfl := Option.some.inj same
    exact ⟨Nat.lt_succ_self _, fun inside => absurd (sound.freed _ inside) (Nat.lt_irrefl _)⟩

theorem Sound.newHandle (sound : server.Sound) : server.newHandle.Sound := by
  refine ⟨sound.freed, fun handle inside => ?_, sound.wolfssl, fun handle same => ?_⟩
  · exact (sound.closed handle inside).trans (Nat.lt_succ_self _)
  · obtain rfl := Option.some.inj same
    exact ⟨Nat.lt_succ_self _, fun inside => absurd (sound.closed _ inside) (Nat.lt_irrefl _)⟩

/-! ### One call -/

/-- What a `load` leaves: a sound server with the context of a load that succeeded, and with the
handle of such a load or, after one that failed early, the old one. -/
structure Loaded (server : SSLServer) (outcome : LoadOutcome) (next : SSLServer) : Prop where
  sound : next.Sound
  isLoaded : next.isLoaded = outcome.succeeds
  server : next.server.isSome =
    if outcome.prepares then decide (outcome.bind = 0) else server.server.isSome

/-- A load that fails early drops the context it has and keeps the handle. -/
theorem loaded_early {middle : SSLServer} {outcome : LoadOutcome} (ready : middle.Sound)
    (kept : middle.server = server.server) (fails : outcome.prepares = false) :
    Loaded server outcome { middle.freeContext with wolfssl := none } := by
  refine ⟨ready.dropContext, ?_, ?_⟩
  · rw [LoadOutcome.succeeds, fails]
    rfl
  · rw [fails]
    exact congrArg Option.isSome kept

/-- The end of a load, from the place where the handle is replaced. -/
theorem loaded_late {middle : SSLServer} {outcome : LoadOutcome} (ready : middle.Sound)
    (hasContext : middle.isLoaded = true) (prepares : outcome.prepares = true) :
    Loaded server outcome
      (if outcome.bind ≠ 0 then
        { middle.closeHandle.newHandle.freeContext.closeHandle with
          wolfssl := none, server := none }
      else middle.closeHandle.newHandle) := by
  have replaced : middle.closeHandle.newHandle.Sound := ready.dropHandle.newHandle
  by_cases bound : outcome.bind = 0
  · rw [if_neg (not_not.mpr bound)]
    refine ⟨replaced, ?_, ?_⟩
    · rw [LoadOutcome.succeeds, prepares, bound]
      exact hasContext
    · rw [prepares, bound]
      rfl
  · rw [if_pos bound]
    refine ⟨replaced.dropBoth, ?_, ?_⟩
    · rw [LoadOutcome.succeeds, prepares, decide_eq_false bound]
      rfl
    · rw [prepares, if_pos rfl, decide_eq_false bound]
      rfl

/-- The test before `wolfSSL_CTX_free` makes no difference. -/
theorem ite_freeContext (server : SSLServer) :
    (if server.wolfssl.isSome then server.freeContext else server) = server.freeContext := by
  obtain ⟨wolfssl, handle, freed, closed, nextContext, nextHandle⟩ := server
  cases wolfssl with
  | none => simp [freeContext]
  | some context => rfl

theorem ite_closeHandle (server : SSLServer) :
    (if server.server.isSome then server.closeHandle else server) = server.closeHandle := by
  obtain ⟨wolfssl, handle, freed, closed, nextContext, nextHandle⟩ := server
  cases handle with
  | none => simp [closeHandle]
  | some handle => rfl

/-- **`load`.** -/
theorem Sound.load (sound : server.Sound) (outcome : LoadOutcome) :
    Loaded server outcome (server.load outcome) := by
  have fresh : server.freeContext.newContext.Sound := sound.dropContext.newContext
  simp only [SSLServer.load, ite_freeContext, ite_closeHandle]
  by_cases noContext : outcome.contextNew = false
  · rw [if_pos noContext]
    exact loaded_early sound rfl (by simp [LoadOutcome.prepares, noContext])
  · rw [if_neg noContext]
    by_cases noCertificate : outcome.certificate = false
    · rw [if_pos noCertificate]
      exact loaded_early fresh rfl (by simp [LoadOutcome.prepares, noCertificate])
    · rw [if_neg noCertificate]
      by_cases noKey : outcome.privateKey = false
      · rw [if_pos noKey]
        exact loaded_early fresh rfl (by simp [LoadOutcome.prepares, noKey])
      · rw [if_neg noKey]
        refine loaded_late fresh rfl ?_
        rw [Bool.not_eq_false] at noContext noCertificate noKey
        rw [LoadOutcome.prepares, noContext, noCertificate, noKey]
        rfl

/-- `listen` on a server with a handle: it stays as it is, or loses both. -/
theorem listen_eq_some {result : Int} {next : SSLServer} (listens : server.listen result = some next) :
    server.server.isSome = true ∧ (next = server ∨ next =
      { server.freeContext.closeHandle with wolfssl := none, server := none }) := by
  unfold SSLServer.listen at listens
  split at listens
  · cases listens
  · next hasHandle =>
    refine ⟨Option.isSome_iff_ne_none.mpr hasHandle, ?_⟩
    split at listens
    · exact .inr (Option.some.inj listens).symm
    · exact .inl (Option.some.inj listens).symm

/-- **Every call keeps the server sound.** -/
theorem Sound.step (sound : server.Sound) {event : ServerEvent} {next : SSLServer}
    (stepped : server.step event = some next) : next.Sound := by
  cases event with
  | load outcome => exact Option.some.inj stepped ▸ (sound.load outcome).sound
  | listen result =>
    rcases (listen_eq_some stepped).2 with rfl | rfl
    · exact sound
    · exact sound.dropBoth

/-- **What one call needs** to keep a consistent server consistent. -/
theorem Sound.step_consistent_iff (sound : server.Sound) (consistent : server.Consistent)
    {event : ServerEvent} {next : SSLServer} (stepped : server.step event = some next) :
    next.Consistent ↔ server.Replaces event := by
  rw [(sound.step stepped).consistent_iff]
  rw [sound.consistent_iff] at consistent
  cases event with
  | load outcome =>
    obtain rfl := Option.some.inj stepped
    have loaded := sound.load outcome
    rw [loaded.isLoaded, loaded.server, Replaces, LoadOutcome.succeeds]
    cases outcome.prepares with
    | true => simp
    | false => simp
  | listen result =>
    rcases (listen_eq_some stepped).2 with rfl | rfl
    · exact iff_of_true consistent trivial
    · exact iff_of_true Iff.rfl trivial

theorem sound_start : ({} : SSLServer).Sound :=
  ⟨fun _ => nofun, fun _ => nofun, fun _ => nofun, fun _ => nofun⟩

/-- **When context and handle are present together after every call.** -/
theorem run_consistent_iff {events : List ServerEvent} {final : SSLServer}
    (ran : run SSLServer.step {} events = some final) :
    Throughout SSLServer.step Consistent {} events ↔ Along SSLServer.step Replaces {} events := by
  have sound : Throughout SSLServer.step Sound {} events :=
    throughout_always Sound (fun _ _ _ sound stepped => sound.step stepped) sound_start
  refine throughout_iff_along (fun state event next isSound _ consistent stepped => ?_) sound
    (sound_start.consistent_iff.mpr Iff.rfl) ran
  exact isSound.step_consistent_iff consistent stepped

end SSLServer

end GemCaps
