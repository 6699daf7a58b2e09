/-
# TurboNet.Net.ChannelQueries — what a channel says it is interested in.

`IsWriting` tests `kReadEvent` and `IsReading` tests `kWriteEvent`.  While a channel wants something
the kernel has its mask (`Wanting`), so each answer is about the other direction
(`queries_swapped`), and is changed by the calls of the other direction.  The answers are right as
long as nothing was ever enabled, and the first `Enable*` makes one of them wrong
(`queries_agree_iff`).
-/
import TurboNet.Net.ChannelInterest

namespace TurboNet.Net

open TurboNet.Lib
open TurboNet.Logger
open EpollPoller (Touches)

variable {κ : Type} [DecidableEq κ] {B : Build} {tid : Int} {c c' : κ} {w w' : World κ}

/-- The calls that are about reading. -/
def Toggle.forReading : Toggle → Bool
  | .enableReading | .disableReading | .disableAll => true
  | .enableWriting | .disableWriting => false

/-- The calls that are about writing. -/
def Toggle.forWriting : Toggle → Bool
  | .enableWriting | .disableWriting | .disableAll => true
  | .enableReading | .disableReading => false

/-- The answers of every channel that wants something agree with the mask the kernel was last given
for its descriptor. -/
def QueriesAgree (w : World κ) : Prop :=
  ∀ c, (w.chan c).events ≠ 0 → ∃ r, w.epoll.interest (w.chan c).fd = some r ∧
    ((w.chan c).isReading = true ↔ r.events &&& EPOLLIN ≠ 0) ∧
    ((w.chan c).isWriting = true ↔ r.events &&& EPOLLOUT ≠ 0)

/-- Each answer is changed by a call of its own direction on the channel only. -/
def ChangedByOwn (w w' : World κ) (a : Toggle × κ) : Prop :=
  ∀ c, ((w'.chan c).isReading ≠ (w.chan c).isReading → a.2 = c ∧ a.1.forReading = true) ∧
    ((w'.chan c).isWriting ≠ (w.chan c).isWriting → a.2 = c ∧ a.1.forWriting = true)

/-- The call returns, has changed no answer but its own, and the answers agree after it. -/
def AgreesAfter (B : Build) (tid : Int) (w : World κ) (a : Toggle × κ) : Prop :=
  ∃ w', (toggleRuns κ B tid).step w a = some w' ∧ QueriesAgree w' ∧ ChangedByOwn w w' a

/-! ## What the answers are -/

/-- The masks the five calls make. -/
def Toggle.masks : List Events :=
  [0, Channel.kReadEvent, Channel.kWriteEvent, Channel.kReadEvent ||| Channel.kWriteEvent]

theorem Toggle.masks_cases {events : Events} (h : events ∈ Toggle.masks) :
    events = 0 ∨ events = Channel.kReadEvent ∨ events = Channel.kWriteEvent ∨
      events = Channel.kReadEvent ||| Channel.kWriteEvent := by
  simpa only [Toggle.masks, List.mem_cons, List.not_mem_nil, or_false] using h

theorem Toggle.mask_mem (t : Toggle) {events : Events} (h : events ∈ Toggle.masks) :
    t.mask events ∈ Toggle.masks := by
  rcases Toggle.masks_cases h with rfl | rfl | rfl | rfl <;> cases t <;> decide

/-- A channel that wants something is watched, and its mask comes from the five calls. -/
structure Wanting (tid : Int) (w : World κ) : Prop extends Watching tid w where
  added : ∀ c, (w.chan c).events ≠ 0 → (w.chan c).index = kAdd
  mask : ∀ c, (w.chan c).events ∈ Toggle.masks

theorem wanting_touched (hw : Wanting tid w) {events : Events} (hmask : events ∈ Toggle.masks)
    {i : Int} {r : Option (Registration κ)}
    (htouches : Touches c i (some c) r (w.assigned c events) w') (h : Decides w c events i r) :
    Wanting tid w' where
  toWatching := watching_touched hw.toWatching htouches h
  added := by
    intro c' hwants
    rw [htouches.events, World.chan_assigned] at hwants
    rw [htouches.chan]
    by_cases hcc : c' = c
    · rw [if_pos hcc] at hwants ⊢
      rcases h with ⟨-, hzero, -, -⟩ | ⟨-, rfl, -⟩
      · exact absurd hzero hwants
      · rfl
    · rw [if_neg hcc] at hwants ⊢
      rw [World.chan_assigned_of_ne events hcc]
      exact hw.added c' hwants
  mask := by
    intro c'
    rw [htouches.events, World.chan_assigned]
    split
    next => exact hmask
    next => exact hw.mask c'

omit [DecidableEq κ] in
theorem wanting_init (loopAddr : Nat) {fds : κ → Fd} (hfds : Function.Injective fds) :
    Wanting tid (World.init loopAddr tid fds) where
  fd_inj _ _ h := hfds h
  attached c := attached_init loopAddr fds c
  added _ h := absurd rfl h
  mask _ := List.mem_cons_self

omit [DecidableEq κ] in
/-- The kernel has the mask of a channel that wants something. -/
theorem Wanting.registered (hw : Wanting tid w) (hwants : (w.chan c).events ≠ 0) :
    w.epoll.interest (w.chan c).fd = some ⟨c, (w.chan c).events⟩ := by
  have hadd := hw.added c hwants
  cases (hw.attached c).phase with
  | unknown hindex => exact absurd (hadd.symm.trans hindex) (by decide)
  | watched _ _ hreg => exact hreg
  | parked hindex => exact absurd (hadd.symm.trans hindex) (by decide)

omit [DecidableEq κ] in
/-- **Each answer is about the other direction.** -/
theorem queries_swapped (hw : Wanting tid w) (hwants : (w.chan c).events ≠ 0) :
    ∃ r, w.epoll.interest (w.chan c).fd = some r ∧
      ((w.chan c).isReading = true ↔ r.events &&& EPOLLOUT ≠ 0) ∧
      ((w.chan c).isWriting = true ↔ r.events &&& EPOLLIN ≠ 0) := by
  refine ⟨_, hw.registered hwants, ?_⟩
  unfold Channel.isReading Channel.isWriting
  dsimp only
  rcases Toggle.masks_cases (hw.mask c) with h | h | h | h <;> rw [h] <;> decide

/-! ## Runs -/

/-- No channel wants anything. -/
structure Idle (tid : Int) (w : World κ) : Prop extends Wanting tid w where
  nothing : ∀ c, (w.chan c).events = 0

omit [DecidableEq κ] in
/-- An `Enable*` makes a mask of one direction, about which one of the answers is wrong. -/
theorem not_agree_enabled {t : Toggle} (ht : t.disables = false) (hw : Wanting tid w)
    (hevents : (w.chan c).events = t.mask 0) : ¬ QueriesAgree w := by
  intro hagree
  have hwants : (w.chan c).events ≠ 0 := by
    rw [hevents]
    exact Toggle.mask_ne_zero ht 0
  obtain ⟨r, hreg, hreading, hwriting⟩ := hagree c hwants
  rw [hw.registered hwants] at hreg
  cases hreg
  unfold Channel.isReading at hreading
  unfold Channel.isWriting at hwriting
  rw [hevents] at hreading hwriting
  dsimp only at hreading hwriting
  cases t with
  | enableReading => exact absurd hreading (by decide)
  | enableWriting => exact absurd hwriting (by decide)
  | disableReading => cases ht
  | disableWriting => cases ht
  | disableAll => cases ht

/-- A `Disable*` where nothing is wanted leaves every mask empty. -/
theorem Idle.disabled (hw : Idle tid w) {t : Toggle} (ht : t.disables = true) {i : Int}
    {r : Option (Registration κ)}
    (htouches : Touches c i (some c) r (w.assigned c (t.mask (w.chan c).events)) w')
    (h : Decides w c (t.mask (w.chan c).events) i r) : Idle tid w' where
  toWanting := wanting_touched hw.toWanting (t.mask_mem (hw.mask c)) htouches h
  nothing := by
    intro c'
    rw [htouches.events, World.chan_assigned]
    split
    next =>
      show t.mask (w.chan c).events = 0
      rw [hw.nothing c]
      exact Toggle.mask_zero ht
    next => exact hw.nothing c'

omit [DecidableEq κ] in
theorem Idle.agree (hw : Idle tid w) : QueriesAgree w := fun c hwants =>
  absurd (hw.nothing c) hwants

omit [DecidableEq κ] in
/-- Both answers are no. -/
theorem Idle.changed (hw : Idle tid w) (hw' : Idle tid w') (a : Toggle × κ) :
    ChangedByOwn w w' a := by
  intro c
  unfold Channel.isReading Channel.isWriting
  rw [hw.nothing c, hw'.nothing c]
  exact ⟨fun h => absurd rfl h, fun h => absurd rfl h⟩

/-- From a state in which nothing is wanted. -/
theorem agreesAfter_iff (hw : Idle tid w) (a : Toggle × κ) :
    AgreesAfter B tid w a ↔ a.1.disables = true := by
  obtain ⟨t, c⟩ := a
  obtain ⟨w', i, r, hstep, htouches, hdecides⟩ :=
    toggle_run (B := B) (hw.attached c) t
  constructor
  · rintro ⟨w₁, hstep₁, hagree, -⟩
    obtain rfl := Option.some.inj (hstep.symm.trans hstep₁)
    cases ht : t.disables with
    | true => rfl
    | false =>
      have hwanting := wanting_touched hw.toWanting (t.mask_mem (hw.mask c)) htouches hdecides
      have hevents : (w'.chan c).events = t.mask 0 := by
        rw [htouches.events, World.chan_assigned_self]
        exact congrArg t.mask (hw.nothing c)
      exact absurd hagree (not_agree_enabled ht hwanting hevents)
  · intro ht
    have hw' := hw.disabled ht htouches hdecides
    exact ⟨w', hstep, hw'.agree, hw.changed hw' _⟩

/-- **When the queries agree with what is registered.** In every build, for channels on distinct
descriptors and a kernel that does every legal `epoll_ctl`: all calls return, the answers agree with
the registered mask after each of them, and each is changed by calls of its own direction only,
exactly when the run has no `EnableReading` and no `EnableWriting`. -/
theorem queries_agree_iff (B : Build) (loopAddr : Nat) (tid : Int) (fds : κ → Fd)
    (hfds : Function.Injective fds) (calls : List (Toggle × κ)) :
    (toggleRuns κ B tid).Along (AgreesAfter B tid) (World.init loopAddr tid fds) calls ↔
      ∀ a ∈ calls, a.1.disables = true := by
  have hinit : Idle tid (World.init loopAddr tid fds) := ⟨wanting_init loopAddr hfds, fun _ => rfl⟩
  generalize World.init loopAddr tid fds = w at hinit ⊢
  induction calls generalizing w with
  | nil => simp [StepSystem.Along]
  | cons a calls ih =>
    obtain ⟨t, c⟩ := a
    obtain ⟨w', i, r, hstep, htouches, hdecides⟩ := toggle_run (B := B) (hinit.attached c) t
    have hrest (ht : t.disables = true) := ih w' (hinit.disabled ht htouches hdecides)
    rw [List.forall_mem_cons]
    constructor
    · rintro ⟨hagrees, halong⟩
      have ht := (agreesAfter_iff hinit (t, c)).mp hagrees
      exact ⟨ht, (hrest ht).mp (halong w' hstep)⟩
    · rintro ⟨ht, hcalls⟩
      refine ⟨(agreesAfter_iff hinit (t, c)).mpr ht, fun w₁ hstep₁ => ?_⟩
      obtain rfl := Option.some.inj (hstep.symm.trans hstep₁)
      exact (hrest ht).mpr hcalls

/-- Two channels that are only disabled. -/
theorem queries_agree_twoDisabled :
    (toggleRuns Bool .release 1).Along (AgreesAfter .release 1)
      (World.init 0 1 fun b => cond b 5 6) [(.disableReading, true), (.disableAll, false)] :=
  (queries_agree_iff .release 0 1 (fun b => cond b 5 6)
    (by intro b b'; cases b <;> cases b' <;> simp) _).mpr (by decide)

/-- `EnableReading` on a fresh channel: the kernel watches `EPOLLIN`, `IsReading` says no and
`IsWriting` says yes. -/
theorem enabled_reading_not_reading :
    let w₀ : World Unit := World.init 0 1 fun _ => 5
    ((toggleRuns Unit .debug 1).step w₀ (.enableReading, ())).map
        (fun w => ((w.epoll.interest 5).map (·.events), (w.chan ()).isReading,
          (w.chan ()).isWriting)) = some (some (EPOLLIN ||| EPOLLPRI), false, true) ∧
    ¬ (toggleRuns Unit .debug 1).Along (AgreesAfter .debug 1) w₀ [(.enableReading, ())] := by
  intro w₀
  refine ⟨by decide +kernel, fun halong => ?_⟩
  have hinit : Idle 1 w₀ := ⟨wanting_init 0 fun _ _ _ => rfl, fun _ => rfl⟩
  exact absurd ((agreesAfter_iff hinit (.enableReading, ())).mp halong.1) (by decide)

end TurboNet.Net
