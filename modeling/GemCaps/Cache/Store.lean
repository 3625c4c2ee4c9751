/-
**The cache** (`cache.hpp`, `cache.cpp`).

A `std::map` is an ordered tree map; the iterations of the source go through it in the order of its
keys. An entry is made by `_get` only, under its own key, so that the key is not held twice. The time
is that of the loop. `size` is an unsigned number of 32 bits. The callbacks do not call back into the
cache; `invoked` is what was called, `subtractions` what was taken from `size`, and `call` numbers the
calls of `getNotified`. No operation reads these three.
-/

import GemCaps.Library.OrderedMap
import GemCaps.Library.Transition
import GemCaps.Text

namespace GemCaps

open Std OrderedMap

/-- `CachedData`. -/
structure CachedData where
  metaText : Bytes := []
  response : Int := 0
  body : Bytes := []
  lifetime : UInt32 := 0
deriving DecidableEq

/-- `CacheKey`. -/
structure CacheKey where
  hash : Nat
  name : Bytes
deriving DecidableEq

namespace CacheKey

/-- `operator<`. -/
def less (lhs rhs : CacheKey) : Bool :=
  if lhs.hash = rhs.hash then (compare lhs.name rhs.name).isLT else lhs.hash < rhs.hash

/-- The order of the map. -/
instance : Ord CacheKey := ⟨compareLex (compareOn hash) (compareOn name)⟩

instance : TransOrd CacheKey :=
  inferInstanceAs (TransCmp (compareLex (compareOn hash) (compareOn name)))

instance : LawfulEqOrd CacheKey where
  eq_of_compare {lhs rhs} same := by
    obtain ⟨hashes, names⟩ := compareLex_eq_eq.mp same
    cases lhs
    cases rhs
    exact congr (congrArg mk (LawfulEqOrd.eq_of_compare hashes)) (LawfulEqOrd.eq_of_compare names)

/-- It is the one of `operator<`. -/
theorem compare_eq_lt (lhs rhs : CacheKey) : compare lhs rhs = .lt ↔ lhs.less rhs = true := by
  show (compare lhs.hash rhs.hash).then (compare lhs.name rhs.name) = .lt ↔ _
  unfold less
  by_cases same : lhs.hash = rhs.hash
  · rw [if_pos same, same, compare_self, Ordering.isLT_iff_eq_lt]
    rfl
  · rw [if_neg same, decide_eq_true_iff, ← Nat.compare_eq_lt]
    cases hashes : compare lhs.hash rhs.hash with
    | lt => exact iff_of_true rfl rfl
    | gt => exact iff_of_false nofun nofun
    | eq => exact absurd (LawfulEqOrd.eq_of_compare hashes) same

end CacheKey

/-- The address of a function. -/
abbrev CacheReadyCB := Nat

/-- What `callbacks` holds for a function: the argument, and which call has come with it. -/
structure Waiter where
  argument : Nat
  call : Nat
deriving DecidableEq

/-- A callback that was called. -/
structure Invocation where
  callback : CacheReadyCB
  waiter : Waiter
  data : CachedData
deriving DecidableEq

/-- `CacheInfo`. -/
structure CacheInfo where
  /-- When the timer is due; none where it is not active. -/
  timer : Option Nat := none
  callbacks : TreeMap CacheReadyCB Waiter := ∅
  loading : Bool := false
  ready : Bool := false
  data : CachedData := {}

namespace CacheInfo

variable (info : CacheInfo)

def setTimout (now : Nat) (time : UInt32) : CacheInfo :=
  { info with timer := some (now + time.toNat) }

def stopTimer : CacheInfo := { info with timer := none }

/-- The time left; `-1`, as an unsigned number, where the timer is not active. -/
def getTime (now : Nat) : Nat :=
  match info.timer with
  | none => 2 ^ 32 - 1
  | some due => (due - now) % 2 ^ 32

def addCallback (callback : CacheReadyCB) (waiter : Waiter) : CacheInfo :=
  { info with callbacks := info.callbacks.insert callback waiter }

def setLoading : CacheInfo := { info with loading := true, ready := false }

/-- `cancelLoading`, with the one call it makes. -/
def cancelLoading : CacheInfo × List Invocation :=
  match info.callbacks.toList with
  | [] => ({ info with loading := false, ready := false }, [])
  | first :: _ =>
    ({ info with
      loading := false
      ready := false
      callbacks := info.callbacks.erase first.1 }, [⟨first.1, first.2, info.data⟩])

/-- `setLoaded`, with the calls it makes. -/
def setLoaded : CacheInfo × List Invocation :=
  ({ info with loading := false, ready := true, callbacks := ∅ },
    info.callbacks.toList.map fun pair => ⟨pair.1, pair.2, info.data⟩)

def isLoading : Bool := info.loading

def isLoaded : Bool := info.ready

def setData (data : CachedData) : CacheInfo := { info with data }

def getSize : Nat := info.data.body.length

end CacheInfo

/-- `Cache`. -/
structure Cache where
  maxSize : UInt32 := 0
  cache : TreeMap CacheKey CacheInfo := ∅
  size : UInt32 := 0
  now : Nat := 0
  calls : Nat := 0
  invoked : List Invocation := []
  subtractions : List (UInt32 × Nat) := []

namespace Cache

variable (cache : Cache)

/-- The entry is written back. -/
def put (key : CacheKey) (info : CacheInfo) : Cache :=
  { cache with cache := cache.cache.insert key info }

/-- Callbacks are called. -/
def invoke (invocations : List Invocation) : Cache :=
  { cache with invoked := cache.invoked ++ invocations }

/-- `_get(key)`; a new entry where there is none. -/
def get (key : CacheKey) : CacheInfo := (cache.cache[key]?).getD {}

/-- `size -= amount`. -/
def subtract (amount : Nat) : Cache :=
  { cache with
    size := cache.size - UInt32.ofNat amount
    subtractions := cache.subtractions ++ [(cache.size, amount)] }

/-- `invalidate(key)`. -/
def invalidate (key : CacheKey) : Cache :=
  match cache.cache[key]? with
  | none => cache
  | some info =>
    let cache := if info.isLoaded then cache.subtract info.getSize else cache
    { cache with cache := cache.cache.erase key }

/-- The entry that `_remove_old_cache` picks: the first of those with the least time left. -/
def oldest : Option CacheKey :=
  match cache.cache.toList.map fun pair => (pair.1, pair.2.getTime cache.now) with
  | [] => none
  | first :: rest => some (firstLeast first (first :: rest)).1

/-- `_remove_old_cache()`. -/
def removeOldCache : Cache :=
  match cache.oldest with
  | none => cache
  | some key => cache.invalidate key

/-- `size + data.body.length() > max_size` fails. -/
def Fits (length : Nat) : Prop := cache.size.toNat + length ≤ cache.maxSize.toNat

instance (length : Nat) : Decidable (cache.Fits length) := inferInstanceAs (Decidable (_ ≤ _))

/-- The loop of `add`. Once no entry is left it does not change anything any more, and never ends,
which is `none`. -/
def makeRoom (length : Nat) : (entries : Nat) → Cache → Option Cache
  | 0, cache => if cache.Fits length then some cache else none
  | entries + 1, cache =>
    if cache.Fits length then some cache else makeRoom length entries cache.removeOldCache

/-- The rest of `add`. -/
def place (key : CacheKey) (data : CachedData) : Cache :=
  let info := (cache.get key).setData data
  let cache := { cache with size := cache.size + UInt32.ofNat info.getSize }
  let info := if data.lifetime ≠ 0 then info.setTimout cache.now data.lifetime else info.stopTimer
  let (info, invocations) := info.setLoaded
  (cache.put key info).invoke invocations

/-- `add(key, data)`. -/
def add (key : CacheKey) (data : CachedData) : Option Cache :=
  let room :=
    if cache.maxSize > 0 then makeRoom data.body.length cache.cache.size cache else some cache
  room.map fun room => room.place key data

/-- `loading(key)`. -/
def loading (key : CacheKey) : Cache := cache.put key (cache.get key).setLoading.stopTimer

/-- `cancel(key)`. -/
def cancel (key : CacheKey) : Cache :=
  match cache.cache[key]? with
  | none => cache
  | some info => (cache.put key info.cancelLoading.1).invoke info.cancelLoading.2

/-- `clear()`. -/
def clear : Cache := { cache with cache := ∅ }

/-- `getNotified(key, callback, ctx)`. -/
def getNotified (key : CacheKey) (callback : CacheReadyCB) (argument : Nat) : Bool × Cache :=
  let waiter : Waiter := ⟨argument, cache.calls⟩
  let next := { cache with calls := cache.calls + 1 }
  match cache.cache[key]? with
  | none => (false, next)
  | some info =>
    if info.isLoaded then (true, next.invoke [⟨callback, waiter, info.data⟩])
    else (true, next.put key (info.addCallback callback waiter))

/-- `isLoading(key)`. -/
def isLoading (key : CacheKey) : Bool :=
  match cache.cache[key]? with
  | none => false
  | some info => info.isLoading

/-- `isLoaded(key)`. -/
def isLoaded (key : CacheKey) : Bool :=
  match cache.cache[key]? with
  | none => false
  | some info => info.isLoaded

/-- The timer of an entry runs out: `_timeout()` and `_onCacheTimer`. -/
def timeout (key : CacheKey) : Option Cache :=
  match cache.cache[key]? with
  | none => none
  | some info =>
    if ∃ due ∈ info.timer, due ≤ cache.now then
      some ((cache.put key info.stopTimer).invalidate key)
    else none

end Cache

namespace Cache

variable {cache : Cache} {key : CacheKey} {info : CacheInfo} {callback : CacheReadyCB} {argument : Nat}

theorem get_of_some (found : cache.cache[key]? = some info) : cache.get key = info := by
  unfold get
  rw [found]
  rfl

theorem cancel_of_none (missing : cache.cache[key]? = none) : cache.cancel key = cache := by
  unfold cancel
  rw [missing]

theorem cancel_of_some (found : cache.cache[key]? = some info) :
    cache.cancel key = (cache.put key info.cancelLoading.1).invoke info.cancelLoading.2 := by
  unfold cancel
  rw [found]

theorem getNotified_of_none (missing : cache.cache[key]? = none) :
    cache.getNotified key callback argument = (false, { cache with calls := cache.calls + 1 }) := by
  unfold getNotified
  rw [missing]

/-- A loaded entry answers at once. -/
theorem getNotified_of_loaded (found : cache.cache[key]? = some info) (isLoaded : info.isLoaded = true) :
    cache.getNotified key callback argument =
      (true, ({ cache with calls := cache.calls + 1 } : Cache).invoke
        [⟨callback, ⟨argument, cache.calls⟩, info.data⟩]) := by
  unfold getNotified
  simp only [found, isLoaded, if_true]

/-- Any other has the callback wait. -/
theorem getNotified_of_waiting (found : cache.cache[key]? = some info)
    (notLoaded : info.isLoaded = false) :
    cache.getNotified key callback argument =
      (true, ({ cache with calls := cache.calls + 1 } : Cache).put key
        (info.addCallback callback ⟨argument, cache.calls⟩)) := by
  unfold getNotified
  simp [found, notLoaded]

end Cache

/-- The calls on a cache, and what the loop does. -/
inductive CacheEvent where
  | loading (key : CacheKey)
  | cancel (key : CacheKey)
  | add (key : CacheKey) (data : CachedData)
  | clear
  | invalidate (key : CacheKey)
  | getNotified (key : CacheKey) (callback : CacheReadyCB) (argument : Nat)
  | timeout (key : CacheKey)
  | elapse (time : Nat)
deriving DecidableEq

/-- One event; `none` where `add` does not return, or no timer is due. -/
def Cache.step (cache : Cache) : CacheEvent → Option Cache
  | .loading key => some (cache.loading key)
  | .cancel key => some (cache.cancel key)
  | .add key data => cache.add key data
  | .clear => some cache.clear
  | .invalidate key => some (cache.invalidate key)
  | .getNotified key callback argument => some (cache.getNotified key callback argument).2
  | .timeout key => cache.timeout key
  | .elapse time => some { cache with now := cache.now + time }

end GemCaps
