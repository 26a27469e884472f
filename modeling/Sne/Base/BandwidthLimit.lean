import Mathlib.Algebra.GroupWithZero.Nat
import Mathlib.Data.List.Induction
import Sne.Library.ByteMemory
import Sne.Library.Runs

/-!
# The limit of the inbound bandwidth

`BandwidthLimit.cpp`. A window of time is opened by a read and closed by the first read of
a later second, however much later, and only if that read stays below the limit: the bytes
of a second long past can make a read exceed it.
-/

namespace Sne.Base.Bandwidth

open Sne.Library.ByteMemory Sne.Library.Runs

set_option autoImplicit false

structure SessionCapacity where
  maxBytesPerSecond : UInt16
  secondsForThrottling : UInt16
  deriving DecidableEq, Repr

def SessionCapacity.shouldThrottle (capacity : SessionCapacity) : Bool :=
  decide (0 < capacity.maxBytesPerSecond.toNat)

/-- A time of 0 is one that is not set. -/
structure BandwidthLimit where
  capacity : SessionCapacity
  readBytes : Nat := 0
  startedTime : Int := 0
  badTime : Int := 0
  deriving DecidableEq, Repr

namespace BandwidthLimit

def reset (limit : BandwidthLimit) : BandwidthLimit :=
  { limit with startedTime := 0, readBytes := 0, badTime := 0 }

def check (now : Int) (limit : BandwidthLimit) : Bool × BandwidthLimit :=
  if limit.capacity.shouldThrottle = false then (true, limit)
  else if limit.readBytes < limit.capacity.maxBytesPerSecond.toNat then (true, limit)
  else if limit.badTime = 0 then (true, limit)
  else if limit.capacity.secondsForThrottling.toNat ≤ now - limit.badTime then (true, limit.reset)
  else (false, limit)

def count (now : Int) (bytes : Nat) (limit : BandwidthLimit) : BandwidthLimit :=
  { limit with
    readBytes := sizeT (limit.readBytes + bytes)
    startedTime := if limit.startedTime = 0 then now else limit.startedTime }

def add (now : Int) (bytes : Nat) (limit : BandwidthLimit) : BandwidthLimit :=
  if limit.capacity.shouldThrottle = false then limit
  else
    let limit := limit.count now bytes
    if limit.readBytes < limit.capacity.maxBytesPerSecond.toNat then
      if 1 ≤ now - limit.startedTime then limit.reset else limit
    else if limit.badTime = 0 then { limit with badTime := now }
    else limit

end BandwidthLimit

/-- What a session reads in one go, and the second of the clock. -/
structure Read where
  now : Int
  bytes : Nat
  deriving DecidableEq, Repr

/-- What it returns tells whether the session may go on reading. -/
def addInboundBandwidth (limit : BandwidthLimit) (read : Read) : Bool × BandwidthLimit :=
  (limit.add read.now read.bytes).check read.now

def BandwidthLimit.after (limit : BandwidthLimit) (reads : List Read) : BandwidthLimit :=
  reads.foldl (fun limit read => (addInboundBandwidth limit read).2) limit

/-- `check` returns true after each `add`. -/
def NeverThrottled (capacity : SessionCapacity) : List Read → Prop :=
  Throughout fun before read => (addInboundBandwidth (.after { capacity } before) read).1 = true

def received (reads : List Read) (second : Int) : Nat :=
  ((reads.filter fun read => read.now = second).map Read.bytes).sum

/-- The clock is set and does not go back, and any two seconds in a row stay below the limit. -/
structure Compliant (limit : Nat) (reads : List Read) : Prop where
  set : ∀ read ∈ reads, read.now ≠ 0
  ordered : reads.Pairwise (·.now ≤ ·.now)
  moderate : ∀ second, received reads second + received reads (second + 1) < limit

/-- The reads of one second that a window has so far. -/
structure Window where
  second : Int
  bytes : Nat
  deriving DecidableEq, Repr

/-- A read of a later second closes the window and belongs to none. -/
def Window.next (window : Option Window) (read : Read) : Option Window :=
  match window with
  | none => some ⟨read.now, read.bytes⟩
  | some window =>
      if read.now = window.second then some ⟨window.second, window.bytes + read.bytes⟩ else none

def openWindow (reads : List Read) : Option Window := reads.foldl Window.next none

/-- A read that comes two seconds or more after a window was opened stays below the limit
together with the bytes of the window. -/
def SparesOldWindow (limit : Nat) (before : List Read) (read : Read) : Prop :=
  ∀ window, openWindow before = some window → window.second + 2 ≤ read.now →
    window.bytes + read.bytes < limit

section Reads

variable {reads : List Read} {read : Read} {limit : Nat}

theorem received_concat (reads : List Read) (read : Read) (second : Int) :
    received (reads ++ [read]) second =
      received reads second + if read.now = second then read.bytes else 0 := by
  unfold received
  rw [List.filter_append, List.map_append, List.sum_append]
  by_cases same : read.now = second
  · rw [if_pos same, List.filter_singleton, decide_eq_true same]
    simp
  · rw [if_neg same, List.filter_singleton, decide_eq_false same]
    simp

theorem open_window_concat (reads : List Read) (read : Read) :
    openWindow (reads ++ [read]) = Window.next (openWindow reads) read := by
  rw [openWindow, List.foldl_append]
  rfl

theorem after_concat (limit : BandwidthLimit) (reads : List Read) (read : Read) :
    limit.after (reads ++ [read]) = (addInboundBandwidth (limit.after reads) read).2 := by
  rw [BandwidthLimit.after, List.foldl_append]
  rfl

theorem Compliant.before (compliant : Compliant limit (reads ++ [read])) : Compliant limit reads where
  set earlier member := compliant.set earlier (List.mem_append_left _ member)
  ordered := (List.pairwise_append.mp compliant.ordered).1
  moderate second := by
    have bound := compliant.moderate second
    rw [received_concat, received_concat] at bound
    omega

/-- A window is of a second that was read, and has no more bytes than were read then. -/
theorem open_window_received {window : Window} (opened : openWindow reads = some window) :
    (∃ read ∈ reads, read.now = window.second) ∧ window.bytes ≤ received reads window.second := by
  induction reads using List.reverseRecOn generalizing window with
  | nil => cases opened
  | append_singleton reads read induction =>
      rw [open_window_concat] at opened
      have last : read ∈ reads ++ [read] := List.mem_append_right _ List.mem_cons_self
      cases before : openWindow reads with
      | none =>
          rw [before] at opened
          cases opened
          rw [received_concat, if_pos rfl]
          exact ⟨⟨read, last, rfl⟩, Nat.le_add_left _ _⟩
      | some earlier =>
          simp only [before, Window.next] at opened
          split at opened
          · rename_i same
            cases opened
            rw [received_concat, if_pos same]
            exact ⟨⟨read, last, same⟩, Nat.add_le_add_right (induction before).2 _⟩
          · cases opened

theorem young_window_spared (compliant : Compliant limit (reads ++ [read])) {window : Window}
    (opened : openWindow reads = some window) :
    window.second ≤ read.now ∧ (read.now < window.second + 2 → window.bytes + read.bytes < limit) := by
  rcases open_window_received opened with ⟨⟨earlier, member, same⟩, counted⟩
  have later := (List.pairwise_append.mp compliant.ordered).2.2 earlier member read List.mem_cons_self
  rw [same] at later
  refine ⟨later, ?_⟩
  intro young
  have bound := compliant.moderate window.second
  rw [received_concat, received_concat] at bound
  have near : read.now = window.second ∨ read.now = window.second + 1 := by omega
  cases near with
  | inl same =>
      rw [if_pos same] at bound
      omega
  | inr next =>
      rw [if_pos next] at bound
      omega

theorem single_read_spared (compliant : Compliant limit (reads ++ [read])) : read.bytes < limit := by
  have bound := compliant.moderate read.now
  rw [received_concat, if_pos rfl] at bound
  omega

end Reads

section Limit

variable {capacity : SessionCapacity} {limit : BandwidthLimit} {reads : List Read} {read : Read}

theorem should_throttle (throttles : 0 < capacity.maxBytesPerSecond.toNat) :
    ¬capacity.shouldThrottle = false := by
  rw [Bool.not_eq_false]
  exact decide_eq_true throttles

theorem count_capacity (now : Int) (bytes : Nat) (limit : BandwidthLimit) :
    (limit.count now bytes).capacity = limit.capacity := rfl

theorem count_bad_time (now : Int) (bytes : Nat) (limit : BandwidthLimit) :
    (limit.count now bytes).badTime = limit.badTime := rfl

/-- A read that stays below the limit passes, and closes the window if it is of a later second. -/
theorem read_below (throttles : 0 < limit.capacity.maxBytesPerSecond.toNat)
    (below : limit.readBytes + read.bytes < limit.capacity.maxBytesPerSecond.toNat) :
    addInboundBandwidth limit read = (true,
      if 1 ≤ read.now - (limit.count read.now read.bytes).startedTime then limit.reset
      else limit.count read.now read.bytes) := by
  have small := limit.capacity.maxBytesPerSecond.toNat_lt
  have counted : (limit.count read.now read.bytes).readBytes = limit.readBytes + read.bytes :=
    size_t_sum (by omega)
  have added : limit.add read.now read.bytes =
      if 1 ≤ read.now - (limit.count read.now read.bytes).startedTime then limit.reset
      else limit.count read.now read.bytes := by
    simp only [BandwidthLimit.add, if_neg (should_throttle throttles), counted, count_capacity,
      count_bad_time]
    rw [if_pos below]
    rfl
  have rest : ∀ next : BandwidthLimit, next.capacity = limit.capacity →
      next.readBytes < next.capacity.maxBytesPerSecond.toNat → next.check read.now = (true, next) := by
    intro next same few
    rw [BandwidthLimit.check, if_neg (same ▸ should_throttle throttles), if_pos few]
  rw [addInboundBandwidth, added]
  split
  · exact rest limit.reset rfl throttles
  · apply rest (limit.count read.now read.bytes) rfl
    rw [counted]
    exact below

theorem read_above (throttles : 0 < limit.capacity.maxBytesPerSecond.toNat)
    (waits : 0 < limit.capacity.secondsForThrottling.toNat) (good : limit.badTime = 0)
    (set : read.now ≠ 0) (bound : limit.readBytes + read.bytes < 18446744073709551616)
    (above : ¬limit.readBytes + read.bytes < limit.capacity.maxBytesPerSecond.toNat) :
    (addInboundBandwidth limit read).1 = false := by
  have counted : (limit.count read.now read.bytes).readBytes = limit.readBytes + read.bytes :=
    size_t_sum bound
  have added : limit.add read.now read.bytes =
      { limit.count read.now read.bytes with badTime := read.now } := by
    simp only [BandwidthLimit.add, if_neg (should_throttle throttles), counted, count_capacity,
      count_bad_time]
    rw [if_neg above, if_pos good]
  have short : ¬(limit.capacity.secondsForThrottling.toNat : Int) ≤ read.now - read.now := by omega
  rw [addInboundBandwidth, added]
  simp only [BandwidthLimit.check, counted, count_capacity]
  rw [if_neg (should_throttle throttles), if_neg above, if_neg set, if_neg short]

def BandwidthLimit.ofWindow (capacity : SessionCapacity) : Option Window → BandwidthLimit
  | none => { capacity }
  | some window => { capacity, readBytes := window.bytes, startedTime := window.second }

@[simp]
theorem of_window_capacity (window : Option Window) :
    (BandwidthLimit.ofWindow capacity window).capacity = capacity := by
  cases window with
  | none => rfl
  | some _ => rfl

@[simp]
theorem of_window_bad_time (window : Option Window) :
    (BandwidthLimit.ofWindow capacity window).badTime = 0 := by
  cases window with
  | none => rfl
  | some _ => rfl

theorem open_window_small (throttles : 0 < capacity.maxBytesPerSecond.toNat)
    (compliant : Compliant capacity.maxBytesPerSecond.toNat reads) :
    (BandwidthLimit.ofWindow capacity (openWindow reads)).readBytes <
      capacity.maxBytesPerSecond.toNat := by
  cases opened : openWindow reads with
  | none => exact throttles
  | some window =>
      change window.bytes < _
      have counted := (open_window_received opened).2
      have bound := compliant.moderate window.second
      omega

theorem read_below_next (throttles : 0 < capacity.maxBytesPerSecond.toNat) {window : Option Window}
    (started : ∀ opened, window = some opened → opened.second ≠ 0 ∧ opened.second ≤ read.now)
    (below : (BandwidthLimit.ofWindow capacity window).readBytes + read.bytes <
      capacity.maxBytesPerSecond.toNat) :
    addInboundBandwidth (.ofWindow capacity window) read =
      (true, .ofWindow capacity (Window.next window read)) := by
  have small := capacity.maxBytesPerSecond.toNat_lt
  have exact : sizeT ((BandwidthLimit.ofWindow capacity window).readBytes + read.bytes) =
      (BandwidthLimit.ofWindow capacity window).readBytes + read.bytes := by
    apply size_t_sum
    omega
  rw [read_below (by rwa [of_window_capacity]) (by rwa [of_window_capacity])]
  cases window with
  | none =>
      have counted : BandwidthLimit.count read.now read.bytes (.ofWindow capacity none) =
          .ofWindow capacity (some ⟨read.now, read.bytes⟩) := by
        rw [BandwidthLimit.count, exact]
        change BandwidthLimit.mk capacity (0 + read.bytes) read.now 0 = _
        rw [Nat.zero_add]
        rfl
      have still : ¬1 ≤ read.now - read.now := by omega
      rw [counted]
      exact congrArg (Prod.mk true) (if_neg still)
  | some opened =>
      rcases started opened rfl with ⟨openedSet, ordered⟩
      have counted : BandwidthLimit.count read.now read.bytes (.ofWindow capacity (some opened)) =
          .ofWindow capacity (some ⟨opened.second, opened.bytes + read.bytes⟩) := by
        rw [BandwidthLimit.count, exact]
        change BandwidthLimit.mk capacity (opened.bytes + read.bytes)
          (if opened.second = 0 then read.now else opened.second) 0 = _
        rw [if_neg openedSet]
        rfl
      rw [counted]
      apply congrArg (Prod.mk true)
      change (if 1 ≤ read.now - opened.second then _ else _) = _
      by_cases same : read.now = opened.second
      · rw [if_neg (by omega), Window.next, if_pos same]
      · rw [if_pos (by omega), Window.next, if_neg same]
        rfl

theorem window_started (compliant : Compliant capacity.maxBytesPerSecond.toNat (reads ++ [read]))
    {window : Window} (opened : openWindow reads = some window) :
    window.second ≠ 0 ∧ window.second ≤ read.now := by
  rcases (open_window_received opened).1 with ⟨earlier, member, same⟩
  refine ⟨?_, (young_window_spared compliant opened).1⟩
  rw [← same]
  exact compliant.set earlier (List.mem_append_left _ member)

theorem spares_old_window_iff
    (compliant : Compliant capacity.maxBytesPerSecond.toNat (reads ++ [read])) :
    SparesOldWindow capacity.maxBytesPerSecond.toNat reads read ↔
      (BandwidthLimit.ofWindow capacity (openWindow reads)).readBytes + read.bytes <
        capacity.maxBytesPerSecond.toNat := by
  constructor
  · intro spares
    cases opened : openWindow reads with
    | none =>
        rw [BandwidthLimit.ofWindow, Nat.zero_add]
        exact single_read_spared compliant
    | some window =>
        by_cases young : read.now < window.second + 2
        · exact (young_window_spared compliant opened).2 young
        · exact spares window opened (Int.not_lt.mp young)
  · intro below window opened _
    rw [opened] at below
    exact below

/-- While no read has been refused, the next one passes exactly if it spares an old window. -/
theorem read_tracks (throttles : 0 < capacity.maxBytesPerSecond.toNat)
    (waits : 0 < capacity.secondsForThrottling.toNat)
    (compliant : Compliant capacity.maxBytesPerSecond.toNat (reads ++ [read]))
    (tracks : limit = .ofWindow capacity (openWindow reads)) :
    ((addInboundBandwidth limit read).1 = true ↔
      SparesOldWindow capacity.maxBytesPerSecond.toNat reads read) ∧
      (SparesOldWindow capacity.maxBytesPerSecond.toNat reads read →
        (addInboundBandwidth limit read).2 = .ofWindow capacity (openWindow (reads ++ [read]))) := by
  rw [tracks, open_window_concat, spares_old_window_iff compliant]
  by_cases below : (BandwidthLimit.ofWindow capacity (openWindow reads)).readBytes + read.bytes <
      capacity.maxBytesPerSecond.toNat
  · rw [read_below_next throttles (fun _ opened => window_started compliant opened) below]
    exact ⟨iff_of_true rfl below, fun _ => rfl⟩
  · have set := compliant.set read (List.mem_append_right _ List.mem_cons_self)
    have small := capacity.maxBytesPerSecond.toNat_lt
    have before := open_window_small throttles compliant.before
    have single := single_read_spared compliant
    have fails : (addInboundBandwidth (.ofWindow capacity (openWindow reads)) read).1 = false := by
      apply read_above _ _ _ set
      · omega
      · rw [of_window_capacity]
        exact below
      · rw [of_window_capacity]
        exact throttles
      · rw [of_window_capacity]
        exact waits
      · exact of_window_bad_time _
    rw [fails]
    exact ⟨iff_of_false Bool.false_ne_true below, fun spares => absurd spares below⟩

theorem reads_track (throttles : 0 < capacity.maxBytesPerSecond.toNat)
    (waits : 0 < capacity.secondsForThrottling.toNat)
    (compliant : Compliant capacity.maxBytesPerSecond.toNat reads) :
    (NeverThrottled capacity reads ↔
      Throughout (SparesOldWindow capacity.maxBytesPerSecond.toNat) reads) ∧
      (Throughout (SparesOldWindow capacity.maxBytesPerSecond.toNat) reads →
        BandwidthLimit.after { capacity } reads = .ofWindow capacity (openWindow reads)) := by
  induction reads using List.reverseRecOn with
  | nil => exact ⟨iff_of_true (throughout_nil _) (throughout_nil _), fun _ => rfl⟩
  | append_singleton reads read induction =>
      rcases induction compliant.before with ⟨same, tracks⟩
      rw [NeverThrottled, throughout_concat, throughout_concat, after_concat]
      constructor
      · rw [← NeverThrottled, same]
        apply and_congr_right
        intro spared
        exact (read_tracks throttles waits compliant (tracks spared)).1
      · intro both
        exact (read_tracks throttles waits compliant (tracks both.1)).2 both.2

end Limit

/-- A compliant client is never throttled exactly if each of its reads that comes two seconds or
more after a window was opened stays below the limit together with the bytes of that window. -/
theorem compliant_never_throttled_iff {capacity : SessionCapacity} {reads : List Read}
    (throttles : 0 < capacity.maxBytesPerSecond) (waits : 0 < capacity.secondsForThrottling)
    (compliant : Compliant capacity.maxBytesPerSecond.toNat reads) :
    NeverThrottled capacity reads ↔
      Throughout (SparesOldWindow capacity.maxBytesPerSecond.toNat) reads :=
  (reads_track throttles waits compliant).1

theorem compliant_pair {limit : Nat} {first second : Read} (firstSet : first.now ≠ 0)
    (secondSet : second.now ≠ 0) (far : first.now + 2 ≤ second.now) (firstBelow : first.bytes < limit)
    (secondBelow : second.bytes < limit) : Compliant limit [first, second] where
  set read member := by
    rcases List.mem_pair.mp member with rfl | rfl
    · exact firstSet
    · exact secondSet
  ordered := by
    apply List.pairwise_pair.mpr
    omega
  moderate other := by
    rw [← List.singleton_append, ← List.nil_append [first], received_concat, received_concat,
      received_concat, received_concat]
    simp only [received, List.filter_nil, List.map_nil, List.sum_nil]
    split_ifs <;> omega

theorem never_throttled_six_three : NeverThrottled ⟨10, 5⟩ [⟨1, 6⟩, ⟨3, 3⟩] := by
  have compliant : Compliant 10 [⟨1, 6⟩, ⟨3, 3⟩] :=
    compliant_pair (by decide) (by decide) (by decide) (by decide) (by decide)
  apply (@compliant_never_throttled_iff ⟨10, 5⟩ _ (by decide) (by decide) compliant).mpr
  change Throughout (SparesOldWindow 10) ([] ++ [⟨1, 6⟩] ++ [⟨3, 3⟩])
  rw [throughout_concat, throughout_concat]
  refine ⟨⟨throughout_nil _, fun _ => nofun⟩, ?_⟩
  intro window opened _
  cases opened
  decide

/-- Six bytes and, more than a minute later, six more: the second read is refused at ten a second. -/
theorem compliant_client_throttled :
    Compliant 10 [⟨1, 6⟩, ⟨100, 6⟩] ∧ ¬NeverThrottled ⟨10, 5⟩ [⟨1, 6⟩, ⟨100, 6⟩] := by
  constructor
  · exact compliant_pair (by decide) (by decide) (by decide) (by decide) (by decide)
  · intro passes
    have second := passes [⟨1, 6⟩] ⟨100, 6⟩ [] rfl
    exact absurd second (by decide)

end Sne.Base.Bandwidth
