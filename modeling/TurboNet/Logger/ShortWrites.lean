/-
# TurboNet.Logger.ShortWrites — the loop of `FileUtil::Append`, call by call.

`Append` counts in `n` what the stream has accepted and derives `remain` from it after every call of
`Write`; both are a `size_t`, and the chars come from `data + n`.  A first call that accepts nothing
is retried, a later one ends the loop.  How many chars a call accepts is the label of its step, so a
schedule is one behaviour of the stream.
-/
import TurboNet.Lib.Storage
import TurboNet.Logger.LogFile
import TurboNet.Logger.LogStream

namespace TurboNet.Logger

open TurboNet.Lib

/-- Where `Append` stands between two calls of `Write`. -/
inductive ShortWrites.Place where
  /-- Before the first call. -/
  | entered
  /-- In the loop, past its test. -/
  | looping
  /-- Past the loop, which its test has ended. -/
  | returned
  /-- Past the loop, which `break` has ended. -/
  | gaveUp
  deriving DecidableEq, Repr

/-- The locals of one `Append`, with the calls of `Write` so far and the chars they accepted. -/
structure ShortWrites where
  n : Nat
  remain : Nat
  calls : Nat
  accepted : List Byte
  place : ShortWrites.Place
  deriving DecidableEq, Repr

namespace ShortWrites

/-- On entry all of `data` remains. -/
def start (data : List Byte) : ShortWrites where
  n := 0
  remain := data.length
  calls := 0
  accepted := []
  place := .entered

/-- `Write(data + offset, len)` of which `x` chars are accepted.  It reads `len` chars. -/
def write (data : List Byte) (offset len x : Nat) : Option (List Byte) :=
  if offset + len ≤ data.length ∧ x ≤ len then some (window data offset (offset + x)) else none

/-- `remain = len - n`, and the test of the loop. -/
def tested (data : List Byte) (s : ShortWrites) (n : Nat) (chars : List Byte) : ShortWrites :=
  let remain := usub 64 data.length n
  { n := n
    remain := remain
    calls := s.calls + 1
    accepted := s.accepted ++ chars
    place := if 0 < remain then .looping else .returned }

/-- `if (x == 0)`: the report goes to `stderr`. -/
def abandoned (s : ShortWrites) : ShortWrites := { s with calls := s.calls + 1, place := .gaveUp }

/-- `Append(data, len)` up to where it updates `written_bytes_`. -/
def appending (data : List Byte) : StepSystem ShortWrites Nat where
  step s x :=
    match s.place with
    | .entered => (write data 0 data.length x).map (tested data s x)
    | .looping => (write data s.n s.remain x).map fun chars =>
        if x = 0 then s.abandoned else tested data s (uadd 64 s.n x) chars
    | .returned | .gaveUp => none

/-- `Append` is past its calls. -/
def Done (s : ShortWrites) : Prop := s.place = .returned ∨ s.place = .gaveUp

instance (s : ShortWrites) : Decidable s.Done :=
  inferInstanceAs (Decidable (s.place = .returned ∨ s.place = .gaveUp))

variable {data : List Byte} {s s' : ShortWrites} {x : Nat} {xs : List Nat}

/-! ## What a call does -/

/-- A call that accepts `x` of what remains, by its place and its answer. -/
inductive Wrote (data : List Byte) (s : ShortWrites) (x : Nat) : ShortWrites → Prop
  | first (hplace : s.place = .entered) (hx : x ≤ data.length) :
      Wrote data s x (tested data s x (window data 0 (0 + x)))
  | nothing (hplace : s.place = .looping) (hx : x = 0) : Wrote data s x s.abandoned
  | more (hplace : s.place = .looping) (hx : 0 < x) (hremain : x ≤ s.remain) :
      Wrote data s x (tested data s (uadd 64 s.n x) (window data s.n (s.n + x)))

theorem write_eq_some_iff {offset len : Nat} {chars : List Byte} :
    write data offset len x = some chars ↔
      (offset + len ≤ data.length ∧ x ≤ len) ∧ window data offset (offset + x) = chars := by
  unfold write
  split
  · rename_i h
    exact ⟨fun hsome => ⟨h, Option.some.inj hsome⟩, fun hsome => congrArg some hsome.2⟩
  · rename_i h
    exact ⟨nofun, fun hsome => absurd hsome.1 h⟩

theorem wrote_of_step (h : (appending data).step s x = some s') : Wrote data s x s' := by
  simp only [appending] at h
  split at h
  · rename_i hplace
    obtain ⟨chars, hwrite, rfl⟩ := Option.map_eq_some_iff.mp h
    obtain ⟨⟨-, hx⟩, rfl⟩ := write_eq_some_iff.mp hwrite
    exact .first hplace hx
  · rename_i hplace
    obtain ⟨chars, hwrite, rfl⟩ := Option.map_eq_some_iff.mp h
    obtain ⟨⟨-, hx⟩, rfl⟩ := write_eq_some_iff.mp hwrite
    split
    · rename_i hzero
      exact .nothing hplace hzero
    · rename_i hpos
      exact .more hplace (Nat.pos_of_ne_zero hpos) hx
  · cases h
  · cases h

/-- A call whose chars are all in `data` is made, whatever it accepts of them. -/
theorem step_enabled (hplace : ¬ s.Done) (hentered : s.place = .entered → s.n = 0)
    (hremain : s.n + s.remain = data.length) (hx : x ≤ s.remain) :
    ∃ s', (appending data).step s x = some s' := by
  have hwrite : write data s.n s.remain x = some (window data s.n (s.n + x)) :=
    write_eq_some_iff.mpr ⟨⟨Nat.le_of_eq hremain, hx⟩, rfl⟩
  simp only [appending]
  split
  · rename_i h
    have hall : s.remain = data.length := by
      have hzero := hentered h
      omega
    rw [hentered h, hall] at hwrite
    exact ⟨_, congrArg (Option.map (tested data s x)) hwrite⟩
  · exact ⟨_, congrArg (Option.map _) hwrite⟩
  · rename_i h
    exact absurd (Or.inl h) hplace
  · rename_i h
    exact absurd (Or.inr h) hplace

/-! ## The invariant -/

/-- After the answers `xs`: `remain` is the true difference, the stream has a prefix of `data`, and
no more calls were made than that prefix allows. -/
structure Sound (data : List Byte) (xs : List Nat) (s : ShortWrites) : Prop where
  le : s.n ≤ data.length
  remain : s.remain = data.length - s.n
  accepted : s.accepted = data.take s.n
  calls : s.calls = xs.length
  entered : s.place = .entered → xs = [] ∧ s.n = 0
  looping : s.place = .looping → 0 < s.remain ∧ xs ≠ [] ∧ xs.length ≤ s.n + 1
  returned : s.place = .returned → s.n = data.length ∧ xs.length ≤ s.n + 1
  gaveUp : s.place = .gaveUp → 0 < s.remain ∧ xs.length ≤ s.n + 2 ∧ ∃ ys, ys ≠ [] ∧ xs = ys ++ [0]

theorem sound_start (data : List Byte) : Sound data [] (start data) where
  le := Nat.zero_le _
  remain := rfl
  accepted := rfl
  calls := rfl
  entered _ := ⟨rfl, rfl⟩
  looping h := by cases h
  returned h := by cases h
  gaveUp h := by cases h

theorem place_tested (data : List Byte) (s : ShortWrites) (n : Nat) (chars : List Byte) :
    (tested data s n chars).place = .looping ∨ (tested data s n chars).place = .returned := by
  show (if 0 < usub 64 data.length n then Place.looping else .returned) = .looping ∨
    (if 0 < usub 64 data.length n then Place.looping else .returned) = .returned
  split
  · exact .inl rfl
  · exact .inr rfl

/-- The state after a call that leaves `s.n + x` chars accepted. -/
theorem sound_tested (hsize : data.length < 2 ^ 64) (hs : Sound data xs s) (hx : s.n + x ≤ data.length)
    (hcalls : xs.length ≤ s.n + x) :
    Sound data (xs ++ [x]) (tested data s (s.n + x) (window data s.n (s.n + x))) := by
  have hremain : usub 64 data.length (s.n + x) = data.length - (s.n + x) := usub_of_le hx hsize
  have hlength : (xs ++ [x]).length = xs.length + 1 := by
    rw [List.length_append, List.length_singleton]
  have hplace : (tested data s (s.n + x) (window data s.n (s.n + x))).place =
      if 0 < data.length - (s.n + x) then .looping else .returned := by
    rw [← hremain]
    rfl
  constructor
  case le => exact hx
  case remain => exact hremain
  case accepted =>
    have hjoin : window data 0 s.n ++ window data s.n (s.n + x) = window data 0 (s.n + x) :=
      window_append (Nat.zero_le s.n) (Nat.le_add_right s.n x) hx
    show s.accepted ++ window data s.n (s.n + x) = data.take (s.n + x)
    rw [hs.accepted]
    exact hjoin
  case calls =>
    show s.calls + 1 = (xs ++ [x]).length
    rw [hlength, hs.calls]
  case entered =>
    intro h
    rw [hplace] at h
    split at h <;> cases h
  case looping =>
    intro h
    rw [hplace] at h
    split at h
    · rename_i hmore
      refine ⟨?_, List.append_ne_nil_of_right_ne_nil xs (List.cons_ne_nil x []), ?_⟩
      · show 0 < usub 64 data.length (s.n + x)
        rw [hremain]
        exact hmore
      · show (xs ++ [x]).length ≤ s.n + x + 1
        omega
    · cases h
  case returned =>
    intro h
    rw [hplace] at h
    split at h
    · cases h
    · rename_i hall
      constructor
      · show s.n + x = data.length
        omega
      · show (xs ++ [x]).length ≤ s.n + x + 1
        omega
  case gaveUp =>
    intro h
    rw [hplace] at h
    split at h <;> cases h

theorem sound_abandoned (hs : Sound data xs s) (hplace : s.place = .looping) :
    Sound data (xs ++ [0]) s.abandoned := by
  obtain ⟨hremain, hne, hcalls⟩ := hs.looping hplace
  have hlength : (xs ++ [0]).length = xs.length + 1 := by
    rw [List.length_append, List.length_singleton]
  constructor
  case le => exact hs.le
  case remain => exact hs.remain
  case accepted => exact hs.accepted
  case calls =>
    show s.calls + 1 = (xs ++ [0]).length
    rw [hlength, hs.calls]
  case entered => exact nofun
  case looping => exact nofun
  case returned => exact nofun
  case gaveUp =>
    intro _
    refine ⟨hremain, ?_, xs, hne, rfl⟩
    show (xs ++ [0]).length ≤ s.n + 2
    omega

/-- **One call** keeps the invariant. -/
theorem sound_step (hsize : data.length < 2 ^ 64) (hs : Sound data xs s)
    (hstep : (appending data).step s x = some s') : Sound data (xs ++ [x]) s' := by
  have hle := hs.le
  have hremain := hs.remain
  cases wrote_of_step hstep with
  | first hplace hx =>
    obtain ⟨rfl, hzero⟩ := hs.entered hplace
    have htested := sound_tested (x := x) hsize hs (by omega) (by rw [List.length_nil]; omega)
    rw [hzero, Nat.zero_add] at htested
    rwa [Nat.zero_add]
  | nothing hplace hx =>
    subst hx
    exact sound_abandoned hs hplace
  | more hplace hx hmore =>
    obtain ⟨-, -, hcalls⟩ := hs.looping hplace
    have hsum : uadd 64 s.n x = s.n + x := uadd_of_lt (by omega)
    rw [hsum]
    exact sound_tested hsize hs (by omega) (by omega)

theorem sound_run (hsize : data.length < 2 ^ 64)
    (hrun : (appending data).exec (start data) xs = some s) : Sound data xs s :=
  StepSystem.exec_history (I := Sound data) (fun _ _ _ _ hs hstep => sound_step hsize hs hstep)
    (sound_start data) hrun

/-- Before the end the next call reads what is left of `data` and nothing else. -/
theorem Sound.enabled (hs : Sound data xs s) (hmore : ¬ s.Done) (hx : x ≤ s.remain) :
    ∃ s', (appending data).step s x = some s' := by
  have hle := hs.le
  have hremain := hs.remain
  exact step_enabled hmore (fun h => (hs.entered h).2) (by omega) hx

theorem Sound.length_le (hs : Sound data xs s) : xs.length ≤ data.length + 1 := by
  have hle := hs.le
  have hremain := hs.remain
  rcases hplace : s.place with _ | _ | _ | _
  · rw [(hs.entered hplace).1]
    exact Nat.zero_le _
  · obtain ⟨-, -, hcalls⟩ := hs.looping hplace
    omega
  · obtain ⟨-, hcalls⟩ := hs.returned hplace
    omega
  · obtain ⟨hmore, hcalls, -⟩ := hs.gaveUp hplace
    omega

/-- All of `data` is accepted at the end, if the loop was not left by `break`. -/
theorem Sound.accepted_of_returned (hs : Sound data xs s) (hplace : s.place = .returned) :
    s.accepted = data := by
  rw [hs.accepted, (hs.returned hplace).1, List.take_length]

/-! ## The calls of one stream -/

/-- The call accepts what the stream `fwrite` takes of what it is offered. -/
def Answered (fwrite : Nat → Nat → Nat) (s : ShortWrites) (x : Nat) : Prop :=
  x = min (fwrite s.calls s.remain) s.remain

theorem writeRest_stuck {fwrite : Nat → Nat → Nat} {k : Nat} {rest : List Byte} (f : FileUtil)
    (hzero : min (fwrite k rest.length) rest.length = 0) : f.writeRest fwrite k rest = f := by
  rw [FileUtil.writeRest]
  split
  · rw [dif_pos hzero]
  · rfl

theorem writeRest_more {fwrite : Nat → Nat → Nat} {k : Nat} {rest : List Byte} (f : FileUtil)
    (hpos : 0 < min (fwrite k rest.length) rest.length) :
    f.writeRest fwrite k rest =
      (f.write (min (fwrite k rest.length) rest.length) rest).writeRest fwrite (k + 1)
        (rest.drop (min (fwrite k rest.length) rest.length)) := by
  have hrest : 0 < rest.length := by omega
  rw [FileUtil.writeRest, dif_pos hrest]
  dsimp only
  rw [dif_neg (Nat.ne_of_gt hpos)]

/-- The loop from a test on: the stream's answers lead to the end, with the chars that `writeRest`
gets into the stream. -/
theorem exists_rest (hsize : data.length < 2 ^ 64) (fwrite : Nat → Nat → Nat) (before : List Byte)
    (s : ShortWrites) (xs : List Nat) (f : FileUtil) (hs : Sound data xs s)
    (hplace : s.place = .looping ∨ s.place = .returned)
    (hf : f.accepted = before ++ s.accepted) :
    ∃ ys s', (appending data).exec s ys = some s' ∧
      (appending data).Along (Answered fwrite) s ys ∧ s'.Done ∧
      (f.writeRest fwrite s.calls (data.drop s.n)).accepted = before ++ s'.accepted := by
  induction hm : s.remain using Nat.strongRecOn generalizing s xs f with
  | ind m ih =>
    rcases hplace with hplace | hplace
    · obtain ⟨hremain, -, hcalls⟩ := hs.looping hplace
      have hrest : (data.drop s.n).length = s.remain := by
        rw [List.length_drop, hs.remain]
      generalize hx : min (fwrite s.calls s.remain) s.remain = x
      have hxle : x ≤ s.remain := by omega
      have hdone : ¬ s.Done := by
        unfold Done
        rw [hplace]
        decide
      obtain ⟨s₁, hstep⟩ := hs.enabled hdone hxle
      cases wrote_of_step hstep with
      | first hentered => exact absurd (hplace.symm.trans hentered) (by decide)
      | nothing _ hzero =>
        refine ⟨[x], s.abandoned, StepSystem.exec_cons.mpr ⟨_, hstep, rfl⟩,
          ⟨hx.symm, fun _ _ => trivial⟩, .inr rfl, ?_⟩
        rw [writeRest_stuck f (by rw [hrest]; omega)]
        exact hf
      | more _ hpos _ =>
        have hle := hs.le
        have hdiff := hs.remain
        have hsum : uadd 64 s.n x = s.n + x := uadd_of_lt (by omega)
        rw [hsum] at hstep
        have hnext := sound_step hsize hs hstep
        have hchars : (data.drop s.n).take x = window data s.n (s.n + x) := by
          rw [window, List.take_drop]
        have hless : data.length - (s.n + x) < m := by omega
        have haccepted : (f.write x (data.drop s.n)).accepted =
            before ++ (tested data s (s.n + x) (window data s.n (s.n + x))).accepted := by
          show f.accepted ++ (data.drop s.n).take x =
            before ++ (s.accepted ++ window data s.n (s.n + x))
          rw [hf, hchars, List.append_assoc]
        obtain ⟨ys, s', hrun, halong, hend, hall⟩ := ih _ hless _ _ _ hnext (place_tested ..)
          haccepted hnext.remain
        refine ⟨x :: ys, s', StepSystem.exec_cons.mpr ⟨_, hstep, hrun⟩, ⟨hx.symm, ?_⟩, hend, ?_⟩
        · intro s₂ hs₂
          obtain rfl := Option.some.inj (hstep.symm.trans hs₂)
          exact halong
        · rw [writeRest_more f (by rw [hrest]; omega), hrest, hx, List.drop_drop]
          exact hall
    · have hnone : data.drop s.n = [] := by
        rw [(hs.returned hplace).1, List.drop_length]
      refine ⟨[], s, rfl, trivial, .inl hplace, ?_⟩
      rw [hnone, writeRest_stuck f (Nat.min_zero _)]
      exact hf

/-- **The run of one stream's answers** comes to its end, and is what `Append` does. -/
theorem exists_run (hsize : data.length < 2 ^ 64) (fwrite : Nat → Nat → Nat) (f : FileUtil) :
    ∃ xs s, (appending data).exec (start data) xs = some s ∧
      (appending data).Along (Answered fwrite) (start data) xs ∧ s.Done ∧
      (f.append fwrite data).accepted = f.accepted ++ s.accepted := by
  generalize hx : min (fwrite 0 data.length) data.length = x
  have hxle : x ≤ data.length := by omega
  have hstart := sound_start data
  have hbegun : ¬ (start data).Done := by
    rintro (h | h)
    · cases h
    · cases h
  obtain ⟨s₁, hstep⟩ := hstart.enabled hbegun hxle
  have hnext := sound_step hsize hstart hstep
  cases wrote_of_step hstep with
  | nothing hplace => cases hplace
  | more hplace => cases hplace
  | first =>
    have haccepted : (f.write x data).accepted =
        f.accepted ++ (tested data (start data) x (window data 0 (0 + x))).accepted := by
      show f.accepted ++ data.take x = f.accepted ++ ([] ++ window data 0 (0 + x))
      rw [Nat.zero_add, List.nil_append]
      rfl
    obtain ⟨ys, s', hrun, halong, hend, hall⟩ :=
      exists_rest hsize fwrite f.accepted _ _ (f.write x data) hnext (place_tested ..) haccepted
    refine ⟨x :: ys, s', StepSystem.exec_cons.mpr ⟨_, hstep, hrun⟩, ⟨hx.symm, ?_⟩, hend, ?_⟩
    · intro s₂ hs₂
      obtain rfl := Option.some.inj (hstep.symm.trans hs₂)
      exact halong
    · rw [← hall, ← hx]
      rfl

/-- **The short-write loop is sound.** Whatever each call accepts: `n` never exceeds `len` and
`remain` is the true difference, the chars accepted over all calls are the first `n` of `data`, there
are at most `len + 1` calls, and until the end the next one can be made; at the end all of `data` is
accepted, unless a call after the first has accepted nothing.  With any stream the calls come to that
end, and `Append` adds to the stream what they accepted. -/
theorem short_writes_sound (data : List Byte) (hsize : data.length < 2 ^ 64) :
    (∀ xs s, (appending data).exec (start data) xs = some s →
      s.n ≤ data.length ∧ s.remain = data.length - s.n ∧ s.accepted = data.take s.n ∧
      s.calls = xs.length ∧ xs.length ≤ data.length + 1 ∧
      (¬ s.Done → ∀ x, x ≤ s.remain → ∃ s', (appending data).step s x = some s') ∧
      (s.Done → s.accepted = data ∨ ∃ ys, ys ≠ [] ∧ xs = ys ++ [0])) ∧
    ∀ fwrite f, ∃ xs s, (appending data).exec (start data) xs = some s ∧
      (appending data).Along (Answered fwrite) (start data) xs ∧ s.Done ∧
      (FileUtil.append fwrite data f).accepted = f.accepted ++ s.accepted := by
  refine ⟨?_, fun fwrite f => exists_run hsize fwrite f⟩
  intro xs s hrun
  have hs := sound_run hsize hrun
  refine ⟨hs.le, hs.remain, hs.accepted, hs.calls, hs.length_le, ?_, ?_⟩
  · intro hmore x hx
    exact hs.enabled hmore hx
  · rintro (hplace | hplace)
    · exact .inl (hs.accepted_of_returned hplace)
    · exact .inr (hs.gaveUp hplace).2.2

/-- Four chars: none at first, then two, then one, then none; and a stream that takes them one by
one. -/
theorem short_writes_sound_four :
    (∃ s, (appending (bytesOf "abcd")).exec (start (bytesOf "abcd")) [0, 2, 1, 0] = some s ∧
      s.accepted = bytesOf "abc" ∧ s.n ≤ 4 ∧ s.remain = 4 - s.n ∧
      (s.Done → s.accepted = bytesOf "abcd" ∨ ∃ ys, ys ≠ [] ∧ [0, 2, 1, 0] = ys ++ [0])) ∧
      ∃ xs s, (appending (bytesOf "abcd")).exec (start (bytesOf "abcd")) xs = some s ∧
        (appending (bytesOf "abcd")).Along (Answered fun _ _ => 1) (start (bytesOf "abcd")) xs ∧
        s.Done ∧ (FileUtil.append (fun _ _ => 1) (bytesOf "abcd") ⟨"log", 0, [], 0⟩).accepted =
          [] ++ s.accepted := by
  obtain ⟨hall, hstream⟩ := short_writes_sound (bytesOf "abcd") (by decide)
  obtain ⟨hle, hremain, -, -, -, -, hend⟩ := hall [0, 2, 1, 0] _ rfl
  exact ⟨⟨_, rfl, by decide, hle, hremain, hend⟩, hstream (fun _ _ => 1) ⟨"log", 0, [], 0⟩⟩

end ShortWrites

end TurboNet.Logger
