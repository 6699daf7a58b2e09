/-
# TurboNet.Net.PollerDelivery — what `EpollPoller::Poll` delivers.

`epoll_wait` fills in the first `n` entries of `event_list_`, for `n` registered descriptors.
`FillActiveChannels` appends their channels, and `Poll` doubles a list that was filled.  The two
disagree about a full list: `FillActiveChannels` asserts that `n` is less than the size, so that in a
build with asserts the doubling is never reached (`delivers_iff`).
-/
import Mathlib.Data.List.Nodup
import TurboNet.Net.PollerRuns

namespace TurboNet.Net

open TurboNet.Lib
open TurboNet.Logger
open EpollPoller (WaitResult fillFrom fillActiveChannels poll)

variable {κ : Type} {B : Build} {w w' : World κ} {events : List (EpollEvent κ)}

/-- What `epoll_wait` may report in `events`: an event for each of the descriptors `fds`, which are
registered, no more than `event_list_` has room for, and none twice.  The masks are any. -/
structure Reports (w : World κ) (fds : List Fd) (events : List (EpollEvent κ)) : Prop where
  fits : events.length ≤ w.eventList.length
  once : fds.Nodup
  known : ∀ fd ∈ fds, (w.epoll.interest fd).isSome
  ptrs : events.map (·.ptr) = fds.map fun fd => (w.epoll.interest fd).map (·.ptr)

/-- The channels of the reported events, each once. -/
theorem Reports.channels (hw : Held w) {fds : List Fd} (h : Reports w fds events) :
    ∃ channels : List κ, events.map (·.ptr) = channels.map some ∧ channels.Nodup := by
  obtain ⟨-, hnodup, hknown, hptrs⟩ := h
  have hregistered : ∀ fd ∈ fds, ∃ r, w.epoll.interest fd = some r := fun fd hfd =>
    Option.isSome_iff_exists.mp (hknown fd hfd)
  refine ⟨fds.filterMap fun fd => (w.epoll.interest fd).map (·.ptr), ?_, ?_⟩
  · rw [hptrs, List.map_filterMap]
    clear hptrs hnodup
    induction fds with
    | nil => rfl
    | cons fd fds ih =>
      obtain ⟨r, hr⟩ := hregistered fd List.mem_cons_self
      have hrest := ih (fun x hx => hknown x (List.mem_cons_of_mem _ hx))
        fun x hx => hregistered x (List.mem_cons_of_mem _ hx)
      rw [List.map_cons, hrest]
      simp [hr]
  · refine List.Nodup.filterMap ?_ hnodup
    intro fd fd' c hc hc'
    -- a channel has one descriptor
    obtain ⟨r, hr, rfl⟩ := Option.map_eq_some_iff.mp hc
    obtain ⟨r', hr', hptr⟩ := Option.map_eq_some_iff.mp hc'
    rw [← (hw.added fd r hr).1, ← (hw.added fd' r' hr').1, hptr]

/-- A `Poll` whose `epoll_wait` reported `events` returns, with their channels behind what was active
before, each with its reported mask, and with `event_list_` doubled if it was full. -/
def Delivers (B : Build) [DecidableEq κ] (w : World κ) (events : List (EpollEvent κ)) (now : Int)
    (active : List κ) : Prop :=
  ∃ (channels : List κ) (w' : World κ), events.map (·.ptr) = channels.map some ∧
    (poll B (.ready events) now active).run w = .ok (now, active ++ channels) w' ∧
    (∀ e ∈ events, ∀ c, e.ptr = some c → (w'.chan c).revents = e.events) ∧
    w'.eventList.length =
      if events.length = w.eventList.length then 2 * w.eventList.length else w.eventList.length

variable [DecidableEq κ] {now : Int} {active channels : List κ}

/-- The loop of `FillActiveChannels`. -/
theorem fillFrom_run (hptrs : events.map (·.ptr) = channels.map some) (hnodup : channels.Nodup)
    (w : World κ) (active : List κ) :
    ∃ w', (fillFrom events active).run w = .ok (active ++ channels) w' ∧
      w'.eventList = w.eventList ∧ (∀ c, c ∉ channels → w'.chan c = w.chan c) ∧
      ∀ e ∈ events, ∀ c, e.ptr = some c → (w'.chan c).revents = e.events := by
  induction events generalizing channels w active with
  | nil =>
    obtain rfl : channels = [] := by
      cases channels with
      | nil => rfl
      | cons c channels => cases hptrs
    exact ⟨w, by rw [List.append_nil]; rfl, rfl, fun _ _ => rfl, nofun⟩
  | cons e rest ih =>
    obtain ⟨ptr, mask⟩ := e
    cases channels with
    | nil => cases hptrs
    | cons c channels =>
      obtain ⟨hptr, hrest⟩ := List.cons.inj hptrs
      cases hptr
      obtain ⟨hc, hnodup⟩ := List.nodup_cons.mp hnodup
      obtain ⟨w', hrun, hlist, hothers, hmasks⟩ :=
        ih hrest hnodup (w.setRevents c mask) (active ++ [c])
      refine ⟨w', ?_, hlist, ?_, ?_⟩
      · unfold fillFrom
        rw [run_modify_bind, hrun, List.append_assoc]
        rfl
      · intro c' hc'
        rw [List.mem_cons, not_or] at hc'
        obtain ⟨hne, hc'⟩ := hc'
        rw [hothers c' hc', World.setRevents, World.chan_setChannel, if_neg hne]
      · intro e he c' hptr
        rcases List.mem_cons.mp he with rfl | he
        · cases hptr
          -- no later event is for the same channel
          rw [hothers c hc, World.setRevents, World.chan_setChannel, if_pos rfl]
        · exact hmasks e he c' hptr

/-- Past its assert `Poll` delivers. -/
theorem delivers_of_pass (hptrs : events.map (·.ptr) = channels.map some) (hnodup : channels.Nodup)
    (hfits : events.length ≤ w.eventList.length)
    (hpass : B.asserts = true → 0 < events.length → events.length < w.eventList.length) :
    Delivers B w events now active := by
  have hsize : (w.fillEvents events).eventList.length = w.eventList.length := by
    simp only [World.fillEvents, List.length_append, List.length_drop]
    omega
  by_cases hn : 0 < events.length
  · obtain ⟨w', hrun, hlist, -, hmasks⟩ := fillFrom_run hptrs hnodup (w.fillEvents events) active
    have hfill : (fillActiveChannels B events.length active).run (w.fillEvents events) =
        .ok (active ++ channels) w' := by
      unfold fillActiveChannels
      rw [run_get_bind, run_bind_of_ok (Build.run_assert_of fun hB => hsize ▸ hpass hB hn)]
      show (fillFrom ((events ++ w.eventList.drop events.length).take events.length) active).run _ = _
      rw [List.take_left, hrun]
    by_cases hfull : events.length = w.eventList.length
    · refine ⟨channels, w'.doubleEventList, hptrs, ?_, hmasks, ?_⟩
      · unfold poll
        rw [run_modify_bind, if_pos hn, run_bind_of_ok hfill, run_get_bind, hlist, hsize,
          if_pos hfull]
        rfl
      · rw [if_pos hfull]
        simp only [World.doubleEventList, List.length_append, List.length_replicate, hlist, hsize]
        omega
    · refine ⟨channels, w', hptrs, ?_, hmasks, ?_⟩
      · unfold poll
        rw [run_modify_bind, if_pos hn, run_bind_of_ok hfill, run_get_bind, hlist, hsize,
          if_neg hfull]
        rfl
      · rw [if_neg hfull, hlist, hsize]
  · obtain rfl : events = [] := List.eq_nil_of_length_eq_zero (by omega)
    obtain rfl : channels = [] := by
      cases channels with
      | nil => rfl
      | cons c channels => cases hptrs
    refine ⟨[], w.fillEvents [], rfl, by rw [List.append_nil]; rfl, nofun, ?_⟩
    rw [hsize, List.length_nil]
    split
    next hempty => rw [← hempty]
    next => rfl

/-- The assert of `FillActiveChannels` fires on a full list. -/
theorem not_delivers_full (hB : B.asserts = true) (hn : 0 < events.length)
    (hfull : w.eventList.length ≤ events.length) : ¬ Delivers B w events now active := by
  rintro ⟨channels, w', -, hrun, -⟩
  have hsize : (w.fillEvents events).eventList.length = events.length := by
    simp only [World.fillEvents, List.length_append, List.length_drop]
    omega
  have hfires : (fillActiveChannels B events.length active).run (w.fillEvents events) =
      .error (.assertFailed "static_cast<size_t>(num_events) < event_list_.size()")
        (w.fillEvents events) := by
    unfold fillActiveChannels
    rw [run_get_bind, run_bind_of_error (Build.run_assert_of_not ?_)]
    intro hpass
    exact absurd (hpass hB) (by rw [hsize]; exact Nat.lt_irrefl _)
  unfold poll at hrun
  rw [run_modify_bind, if_pos hn, run_bind_of_error hfires] at hrun
  cases hrun

/-- **When `Poll` delivers every ready event.** In every run of a poller, for everything `epoll_wait`
can report: exactly when asserts are compiled out, nothing is ready, or fewer events are ready than
`event_list_` has entries. -/
theorem delivers_iff (B : Build) (loopAddr : Nat) (loopThread : Int) (fds : κ → Fd)
    (calls : List (Call κ))
    (hrun : (pollerRuns κ B).exec (World.init loopAddr loopThread fds) calls = some w)
    {ready : List Fd} (hready : Reports w ready events) (now : Int) (active : List κ) :
    Delivers B w events now active ↔
      (B.asserts = true → 0 < events.length → events.length < w.eventList.length) := by
  have hheld : Held w := StepSystem.exec_invariant (fun _ _ _ hw h => held_step hw h)
    (held_init loopAddr loopThread fds) hrun
  constructor
  · intro hdelivers hB hn
    by_contra hfull
    exact not_delivers_full hB hn (Nat.le_of_not_lt hfull) hdelivers
  · intro hpass
    obtain ⟨channels, hptrs, hnodup⟩ := hready.channels hheld
    exact delivers_of_pass hptrs hnodup hready.fits hpass

instance (fds : List Fd) : Decidable (Reports w fds events) :=
  decidable_of_iff
    (events.length ≤ w.eventList.length ∧ fds.Nodup ∧ (∀ fd ∈ fds, (w.epoll.interest fd).isSome) ∧
      events.map (·.ptr) = fds.map fun fd => (w.epoll.interest fd).map (·.ptr))
    ⟨fun ⟨hfits, honce, hknown, hptrs⟩ => ⟨hfits, honce, hknown, hptrs⟩,
      fun h => ⟨h.fits, h.once, h.known, h.ptrs⟩⟩

/-- Channel `c` on descriptor `c`, for the first `n`, each registered for reading. -/
def registerAll (n : Nat) : List (Call Nat) :=
  (List.range n).flatMap fun c => [.setEvents c EPOLLIN, .updateChannel 1 true c]

/-- The first `n` channels are ready to be read. -/
def ready (n : Nat) : List (EpollEvent Nat) :=
  (List.range n).map fun c => { ptr := some c, events := EPOLLIN }

/-- Two of three channels are ready. -/
theorem delivers_twoReady :
    ∃ w, (pollerRuns Nat .debug).exec (World.init 0 1 Nat.cast) (registerAll 3) = some w ∧
      Delivers .debug w (ready 2) 7 [2] := by
  obtain ⟨w, hrun, hreports, hroom⟩ : ∃ w,
      (pollerRuns Nat .debug).exec (World.init 0 1 Nat.cast) (registerAll 3) = some w ∧
        Reports w [0, 1] (ready 2) ∧ (ready 2).length < w.eventList.length := by
    have hrun : ((pollerRuns Nat .debug).exec (World.init 0 1 Nat.cast) (registerAll 3)).any
        fun w => decide (Reports w [0, 1] (ready 2) ∧ (ready 2).length < w.eventList.length) := by
      decide +kernel
    obtain ⟨w, hw, hp⟩ := Option.any_eq_true _ _ |>.mp hrun
    exact ⟨w, hw, of_decide_eq_true hp⟩
  exact ⟨w, hrun, (delivers_iff .debug 0 1 Nat.cast (registerAll 3) hrun hreports 7 [2]).mpr
    fun _ _ => hroom⟩

/-- Sixteen channels are registered, all of them are ready, and the sixteen entries of the first
`event_list_` are filled: nothing is delivered. -/
theorem full_list_not_delivered :
    ∃ w, (pollerRuns Nat .debug).exec (World.init 0 1 Nat.cast) (registerAll 16) = some w ∧
      Reports w ((List.range 16).map Nat.cast) (ready 16) ∧ ¬ Delivers .debug w (ready 16) 7 [] := by
  have hrun : ((pollerRuns Nat .debug).exec (World.init 0 1 Nat.cast) (registerAll 16)).any
      fun w => decide (Reports w ((List.range 16).map Nat.cast) (ready 16) ∧
        w.eventList.length ≤ (ready 16).length) := by
    decide +kernel
  obtain ⟨w, hw, hp⟩ := Option.any_eq_true _ _ |>.mp hrun
  obtain ⟨hreports, hfull⟩ := of_decide_eq_true hp
  exact ⟨w, hw, hreports, not_delivers_full rfl (by decide) hfull⟩

end TurboNet.Net
