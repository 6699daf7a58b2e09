/-
# TurboNet.Net.BufferPipe — two buffers at the ends of a connection.

The sender pushes to its buffer and writes it to a descriptor; the kernel keeps what it has taken
until the receiver reads it, in pieces of its own choosing; the receiver cuts lines from its buffer.
A write may be accepted in part or fail, a read may give any part of what is there or fail.

The bytes pushed are those of the lines, of the receiver's buffer, of the kernel and of the sender's
buffer, in this order (`Intact`), as long as `ReadFd` does not find its free space filled; the first
time it does, and returns, bytes are lost or made up, and the stream is not intact any more.
-/
import TurboNet.Net.BufferLines

namespace TurboNet.Net.Buffer

open TurboNet.Lib

variable {A : Allocator} {b b' : Buffer}

/-- The two buffers and the kernel between them, with the bytes pushed so far, the offset of the CRLF
the receiver found last, and the lines it has read. -/
structure Pipe where
  sender : Buffer
  wire : List Byte
  receiver : Buffer
  pushed : List Byte
  found : Option Nat
  lines : List (List Byte)
  deriving DecidableEq, Repr

namespace Pipe

/-- Nothing has been sent between two buffers. -/
def start (sender receiver : Buffer) : Pipe where
  sender := sender
  wire := []
  receiver := receiver
  pushed := []
  found := none
  lines := []

/-- `PushBack` and `WriteFd` of the sender; `ReadFd`, `FindCRLF` and `ReadToString` of the receiver. -/
inductive Act where
  | push (data : List Byte)
  | send (res : WriteResult)
  /-- `readv` gives the first `n` bytes of the kernel's. -/
  | receive (n : Nat)
  | receiveFailed (errno : Int)
  | find
  | readLine
  deriving DecidableEq, Repr

/-- What the kernel answers to `readv`. -/
def given (s : Pipe) (n : Nat) : ReadvResult := .read (s.wire.take n)

/-- The kernel accepts no more than it is offered, and gives no more than it has and is offered.  A
push that throws pushes nothing. -/
def step (A : Allocator) (s : Pipe) : Act → Option Pipe
  | .push data =>
    match (pushBack A data).run s.sender with
    | .ok _ b => some { s with sender := b, pushed := s.pushed ++ data }
    | .error (.lengthError _) b => some { s with sender := b }
    | .error _ _ => none
  | .send (.accepted n) =>
    if n ≤ s.sender.readableBytes then
      match (writeFd 0 (.accepted n)).run s.sender with
      | .ok out b => some { s with sender := b, wire := s.wire ++ out.sent }
      | .error _ _ => none
    else none
  | .send (.failed errno) =>
    match (writeFd 0 (.failed errno)).run s.sender with
    | .ok _ b => some { s with sender := b }
    | .error _ _ => none
  | .receive n =>
    if n ≤ s.wire.length ∧ n ≤ s.receiver.offered then
      match (readFd A 0 (s.given n)).run s.receiver with
      | .ok _ b => some { s with receiver := b, wire := s.wire.drop n }
      | .error _ _ => none
    else none
  | .receiveFailed errno =>
    match (readFd A 0 (.failed errno)).run s.receiver with
    | .ok _ b => some { s with receiver := b }
    | .error _ _ => none
  | .find =>
    match findCRLF.run s.receiver with
    | .ok r b => some { s with receiver := b, found := r.map (· - s.receiver.readerIndex) }
    | .error _ _ => none
  | .readLine =>
    match s.found with
    | none => none
    | some k =>
      match (readToString (k + 2)).run s.receiver with
      | .ok line b => some { s with receiver := b, found := none, lines := s.lines ++ [line] }
      | .error _ _ => none

/-- All bytes that were pushed and are still somewhere, and nothing else, in order. -/
def Intact (s : Pipe) : Prop :=
  s.lines.flatten ++ s.receiver.contents ++ s.wire ++ s.sender.contents = s.pushed

/-- A read finds more free space than it fills. -/
def ReadsShort (s : Pipe) : Act → Prop
  | .receive n => (s.given n).Short s.receiver
  | _ => True

instance (s : Pipe) : (act : Act) → Decidable (s.ReadsShort act)
  | .receive n => inferInstanceAs
      (Decidable (((s.wire.take n).length : Int) < swrap 64 s.receiver.writeableBytes))
  | .push _ | .send _ | .receiveFailed _ | .find | .readLine => .isTrue trivial

end Pipe

/-- The runs of a connection. -/
def pipeRuns (A : Allocator) : StepSystem Pipe Pipe.Act where
  step := Pipe.step A

open Pipe

variable {s s' : Pipe}

/-! ## One step -/

/-- What the steps do, by their kind. -/
inductive PipeStep (A : Allocator) (s : Pipe) : Act → Pipe → Prop
  | push {data : List Byte} {b : Buffer} (hsound : Sound A b)
      (hcontents : b.contents = s.sender.contents ++ data) :
      PipeStep A s (.push data) { s with sender := b, pushed := s.pushed ++ data }
  | pushThrew (data : List Byte) : PipeStep A s (.push data) s
  | sent {n : Nat} {b : Buffer} (hsound : Sound A b)
      (hcontents : b.contents = s.sender.contents.drop n) :
      PipeStep A s (.send (.accepted n))
        { s with sender := b, wire := s.wire ++ s.sender.contents.take n }
  | sendFailed (errno : Int) : PipeStep A s (.send (.failed errno)) s
  | received {n : Nat} {out : ReadFdOut} {b : Buffer} (hn : n ≤ s.wire.length)
      (hsound : Sound A b) (hrun : (readFd A 0 (s.given n)).run s.receiver = .ok out b) :
      PipeStep A s (.receive n) { s with receiver := b, wire := s.wire.drop n }
  | receiveFailed (errno : Int) : PipeStep A s (.receiveFailed errno) s
  | found (r : Option Nat) (hr : ∀ k, r = some k → FirstAt kCRLF s.receiver.contents k) :
      PipeStep A s .find { s with found := r }
  | line {k : Nat} {b : Buffer} (hk : s.found = some k) (hsound : Sound A b)
      (hcontents : b.contents = s.receiver.contents.drop (k + 2)) :
      PipeStep A s .readLine
        { s with receiver := b, found := none, lines := s.lines ++ [s.receiver.contents.take (k + 2)] }

/-- Both buffers are in order. -/
structure Pipe.Sane (A : Allocator) (s : Pipe) : Prop where
  sender : Sound A s.sender
  receiver : Sound A s.receiver

/-- Sending a part of the readable bytes. -/
theorem writeFd_sound {n : Nat} (h : Sound A b) (hn : n ≤ b.readableBytes) :
    ∃ b', (writeFd 0 (.accepted n)).run b =
        .ok { sent := b.contents.take n, ret := n, errnoInfo := 0 } b' ∧ Sound A b' ∧
      b'.contents = b.contents.drop n := by
  obtain ⟨b', hrun, -, hcontents, -⟩ := writeFd_accepted_spec 0 h.wf hn
  have hcall : Session.call A { buf := b, log := [] } (.writeFd 0 (.accepted n)) = some _ :=
    call_of_ok (run_bind_of_ok hrun)
  have hlegal : Legal { buf := b, log := [] } (.writeFd 0 (.accepted n)) := hn
  exact ⟨b', hrun, call_sound h hlegal hcall, hcontents⟩

theorem pipeStep_of_step {act : Act} (hs : s.Sane A) (h : (pipeRuns A).step s act = some s') :
    PipeStep A s act s' := by
  change Pipe.step A s act = some s' at h
  unfold Pipe.step at h
  split at h
  · split at h
    · rename_i data _ b hrun
      cases h
      obtain ⟨hsound, hcontents⟩ := pushBack_ok hs.sender hrun
      exact .push hsound hcontents
    · rename_i data _ n b hrun
      cases h
      obtain rfl := pushBack_threw hrun
      exact .pushThrew data
    · cases h
  · rename_i n
    split at h
    · rename_i hn
      obtain ⟨b, hrun, hsound, hcontents⟩ := writeFd_sound hs.sender hn
      rw [hrun] at h
      cases h
      exact .sent hsound hcontents
    · cases h
  · rename_i errno
    rw [writeFd_failed_spec 0 errno hs.sender.wf] at h
    cases h
    exact .sendFailed errno
  · rename_i n
    split at h
    · rename_i hn
      split at h
      · rename_i out b hrun
        cases h
        have hallowed : (s.given n).Allowed s.receiver := by
          show (s.wire.take n).length ≤ s.receiver.offered
          rw [List.length_take, Nat.min_eq_left hn.1]
          exact hn.2
        exact .received hn.1 (readFd_sound hs.receiver hallowed hrun) hrun
      · cases h
    · cases h
  · rename_i errno
    cases h
    exact .receiveFailed errno
  · rw [findCRLF_run hs.receiver.wf] at h
    cases h
    refine .found _ fun k hk => ?_
    rw [Option.map_map] at hk
    obtain ⟨j, hj, rfl⟩ := Option.map_eq_some_iff.mp hk
    show FirstAt kCRLF s.receiver.contents (s.receiver.readerIndex + j - s.receiver.readerIndex)
    rw [Nat.add_sub_cancel_left]
    exact (search_spec kCRLF_ne_nil s.receiver.contents).1 j hj
  · split at h
    · cases h
    · rename_i k hk
      split at h
      · rename_i line b hrun
        cases h
        have hlen := of_get_check_ok hrun
        obtain ⟨b₁, hread, hsound, hcontents⟩ := readToString_sound hs.receiver hlen
        cases hrun.symm.trans hread
        exact .line hk hsound hcontents
      · cases h

/-! ## The stream -/

theorem sane_step {act : Act} (hs : s.Sane A) (h : PipeStep A s act s') : s'.Sane A := by
  cases h with
  | push hsound _ => exact ⟨hsound, hs.receiver⟩
  | sent hsound _ => exact ⟨hsound, hs.receiver⟩
  | received _ hsound _ => exact ⟨hs.sender, hsound⟩
  | line _ hsound _ => exact ⟨hs.sender, hsound⟩
  | pushThrew | sendFailed | receiveFailed | found => exact ⟨hs.sender, hs.receiver⟩

/-- A read that finds room appends what it is given. -/
theorem receive_short {n : Nat} {out : ReadFdOut} (hs : s.Sane A)
    (hshort : (s.given n).Short s.receiver)
    (hrun : (readFd A 0 (s.given n)).run s.receiver = .ok out b) :
    b.contents = s.receiver.contents ++ s.wire.take n := by
  have happends : ReadFdAppends A s.receiver 0 (s.given n) := appends_of_short hs.receiver.wf hshort
  obtain ⟨b', happend, hcontents, -⟩ := happends
  cases hrun.symm.trans happend
  exact hcontents

/-- Only a read that finds no room can break the stream. -/
theorem intact_step {act : Act} (hs : s.Sane A) (hi : s.Intact) (hc : s.ReadsShort act)
    (h : PipeStep A s act s') : s'.Intact := by
  unfold Intact at hi ⊢
  cases h with
  | push _ hcontents =>
    show _ ++ _ = s.pushed ++ _
    rw [hcontents, ← List.append_assoc, hi]
  | sent _ hcontents =>
    show _ ++ (s.wire ++ _) ++ _ = s.pushed
    rw [hcontents, ← hi, List.append_assoc _ (s.wire ++ _), List.append_assoc s.wire,
      List.take_append_drop, ← List.append_assoc]
  | received _ _ hrun =>
    show _ ++ _ ++ s.wire.drop _ ++ _ = s.pushed
    rw [receive_short hs hc hrun, ← hi, ← List.append_assoc s.lines.flatten,
      List.append_assoc _ (s.wire.take _), List.take_append_drop]
  | line hk _ hcontents =>
    show (s.lines ++ [_]).flatten ++ _ ++ _ ++ _ = s.pushed
    rw [hcontents, List.flatten_append, List.flatten_singleton, List.append_assoc s.lines.flatten,
      List.take_append_drop, hi]
  | pushThrew | sendFailed | receiveFailed | found => exact hi

/-- A read that finds no room, and returns, breaks the stream. -/
theorem not_intact_of_long {n : Nat} (hs : s.Sane A) (hi : s.Intact)
    (hlong : ¬ s.ReadsShort (.receive n)) (h : PipeStep A s (.receive n) s') : ¬ s'.Intact := by
  intro hi'
  cases h with
  | @received _ out b hn hsound hrun =>
    have hcontents : b.contents = s.receiver.contents ++ s.wire.take n := by
      have hsame : s.lines.flatten ++ (b.contents ++ (s.wire.drop n ++ s.sender.contents)) =
          s.lines.flatten ++ (s.receiver.contents ++ s.wire.take n ++
            (s.wire.drop n ++ s.sender.contents)) := by
        calc s.lines.flatten ++ (b.contents ++ (s.wire.drop n ++ s.sender.contents))
            = s.lines.flatten ++ b.contents ++ s.wire.drop n ++ s.sender.contents := by
              simp only [List.append_assoc]
          _ = s.lines.flatten ++ s.receiver.contents ++ s.wire ++ s.sender.contents :=
              Eq.trans hi' hi.symm
          _ = s.lines.flatten ++ (s.receiver.contents ++ s.wire.take n ++
                (s.wire.drop n ++ s.sender.contents)) := by
              simp only [List.append_assoc, ← List.append_assoc (s.wire.take n),
                List.take_append_drop]
      exact List.append_cancel_right (List.append_cancel_left hsame)
    have hwriter : 0 < s.receiver.writeIndex := Nat.lt_of_lt_of_le (by decide) hs.receiver.writer
    have hgrown : b.readableBytes = s.receiver.readableBytes + (s.wire.take n).length := by
      rw [← hsound.wf.length_contents, ← hs.receiver.wf.length_contents, hcontents,
        List.length_append]
    exact readableBytes_ne_of_long hs.receiver.wf hwriter hlong hrun hgrown

/-- The lines read so far were cut from the bytes pushed, and the rest is on its way. -/
structure Pipe.Delivers (s : Pipe) : Prop where
  cut : Cut kCRLF s.pushed s.lines (s.receiver.contents ++ s.wire ++ s.sender.contents)
  found : ∀ k, s.found = some k → FirstAt kCRLF s.receiver.contents k

theorem delivers_step {act : Act} (hs : s.Sane A) (hd : s.Delivers) (hc : s.ReadsShort act)
    (h : PipeStep A s act s') : s'.Delivers := by
  cases h with
  | @push data b _ hcontents =>
    refine ⟨?_, hd.found⟩
    show Cut kCRLF (s.pushed ++ data) s.lines (s.receiver.contents ++ s.wire ++ b.contents)
    rw [hcontents, ← List.append_assoc]
    exact hd.cut.append kCRLF_ne_nil data
  | @sent n b _ hcontents =>
    refine ⟨?_, hd.found⟩
    show Cut kCRLF s.pushed s.lines
      (s.receiver.contents ++ (s.wire ++ s.sender.contents.take n) ++ b.contents)
    rw [hcontents, ← List.append_assoc, List.append_assoc _ (s.sender.contents.take n),
      List.take_append_drop]
    exact hd.cut
  | @received n out b hn _ hrun =>
    have hcontents := receive_short hs hc hrun
    constructor
    · show Cut kCRLF s.pushed s.lines (b.contents ++ s.wire.drop n ++ s.sender.contents)
      rw [hcontents, List.append_assoc s.receiver.contents, List.take_append_drop]
      exact hd.cut
    · intro k hk
      show FirstAt kCRLF b.contents k
      rw [hcontents]
      exact (hd.found k hk).append kCRLF_ne_nil _
  | found r hr => exact ⟨hd.cut, hr⟩
  | @line k b hk _ hcontents =>
    have hfirst := hd.found k hk
    have hle : k + 2 ≤ s.receiver.contents.length := hfirst.occurs.le_length kCRLF_ne_nil
    have hfirst' : FirstAt kCRLF (s.receiver.contents ++ s.wire ++ s.sender.contents) k := by
      rw [List.append_assoc]
      exact hfirst.append kCRLF_ne_nil _
    have hcut := hd.cut.concat hfirst'
    have hlength : kCRLF.length = 2 := rfl
    rw [hlength, List.append_assoc, List.take_append_of_le_length hle,
      List.drop_append_of_le_length hle, ← hcontents, ← List.append_assoc] at hcut
    exact ⟨hcut, nofun⟩
  | pushThrew | sendFailed | receiveFailed => exact ⟨hd.cut, hd.found⟩

/-! ## Runs -/

variable {b₀ b₁ : Buffer}

/-- Two empty buffers are connected. -/
structure Connects (A : Allocator) (sender receiver : Buffer) : Prop where
  sends : Reachable A sender
  receives : Reachable A receiver
  nothing : sender.contents = [] ∧ receiver.contents = []

theorem Connects.intact (h : Connects A b₀ b₁) : (Pipe.start b₀ b₁).Intact := by
  unfold Intact
  show [].flatten ++ b₁.contents ++ [] ++ b₀.contents = []
  rw [h.nothing.1, h.nothing.2]
  rfl

theorem Connects.delivers (h : Connects A b₀ b₁) : (Pipe.start b₀ b₁).Delivers := by
  refine ⟨?_, nofun⟩
  show Cut kCRLF [] [] (b₁.contents ++ [] ++ b₀.contents)
  rw [h.nothing.1, h.nothing.2]
  exact .nil _

/-- Of a stream whose receiver has all of it and finds no more CRLF, all lines have been read. -/
structure Pipe.AllRead (s : Pipe) : Prop where
  arrived : s.wire = [] ∧ s.sender.contents = []
  searched : findCRLF.run s.receiver = .ok none s.receiver

/-- **A connection delivers the stream exactly as long as no `ReadFd` finds its free space filled.**
The bytes stay intact in all states of a run exactly when each of its reads finds room for more than
it is given; then the lines read are cut from the bytes pushed, however these were cut into pushes,
writes and reads, and once everything has arrived and `FindCRLF` is null they are all lines there
are. -/
theorem pipe_intact_iff (A : Allocator) (h : Connects A b₀ b₁) (acts : List Act)
    (hrun : (pipeRuns A).exec (.start b₀ b₁) acts = some s) :
    ((pipeRuns A).Throughout Intact (.start b₀ b₁) acts ↔
      (pipeRuns A).Along ReadsShort (.start b₀ b₁) acts) ∧
    ((pipeRuns A).Along ReadsShort (.start b₀ b₁) acts →
      Cut kCRLF s.pushed s.lines (s.receiver.contents ++ s.wire ++ s.sender.contents) ∧
      (s.AllRead → ∀ lines rest, Cut kCRLF s.pushed lines rest → (∀ k, ¬ OccursAt kCRLF rest k) →
        s.lines = lines)) := by
  have hstart : (Pipe.start b₀ b₁).Sane A := ⟨h.sends.sound, h.receives.sound⟩
  constructor
  · refine StepSystem.throughout_iff_along (J := Pipe.Sane A) ?_ ?_ ?_ hstart h.intact hrun
    · intro s act s' hs hstep
      exact sane_step hs (pipeStep_of_step hs hstep)
    · intro s act s' hs hi hc hstep
      exact intact_step hs hi hc (pipeStep_of_step hs hstep)
    · intro s act s' hs hi hstep hi'
      by_contra hlong
      cases act with
      | receive n => exact not_intact_of_long hs hi hlong (pipeStep_of_step hs hstep) hi'
      | push | send | receiveFailed | find | readLine => exact hlong trivial
  · intro hshort
    have hboth : s.Sane A ∧ s.Delivers :=
      StepSystem.exec_invariant_along (T := pipeRuns A) (I := fun s => s.Sane A ∧ s.Delivers)
        (fun s act s' hs hc hstep => ⟨sane_step hs.1 (pipeStep_of_step hs.1 hstep),
          delivers_step hs.1 hs.2 hc (pipeStep_of_step hs.1 hstep)⟩) ⟨hstart, h.delivers⟩ hshort hrun
    refine ⟨hboth.2.cut, fun hall lines rest hcut hrest => ?_⟩
    have hmine := hboth.2.cut
    rw [hall.arrived.1, hall.arrived.2, List.append_nil, List.append_nil] at hmine
    refine hmine.unique (fun k hoccurs => ?_) hcut hrest
    obtain ⟨r, hfind, hnull, -⟩ := findCRLF_spec hboth.1.receiver.wf
    cases hall.searched.symm.trans hfind
    exact hnull.mp rfl k (occursAt_kCRLF.mp hoccurs)

/-- `"a\r\nb\r\n"`, written and read in pieces that are not those of the lines. -/
def twoLines : List Pipe.Act :=
  [.push [97, 13, 10, 98], .send (.accepted 2), .push [13, 10], .receive 2, .find,
    .send (.failed 11), .send (.accepted 4), .receive 3, .find, .readLine, .receiveFailed 11,
    .receive 1, .find, .readLine, .find]

theorem fresh_connects : Connects wholeAddressSpace (fresh 4) (fresh 8) where
  sends := fresh_reachable
  receives := .constructed (by decide) (rfl : (construct wholeAddressSpace 8).run ⟨[], 0, 0⟩ = _)
  nothing := ⟨rfl, rfl⟩

theorem pipe_intact_twoLines :
    ∃ s, (pipeRuns wholeAddressSpace).exec (.start (fresh 4) (fresh 8)) twoLines = some s ∧
      s.lines = [[97, 13, 10], [98, 13, 10]] ∧ s.AllRead ∧
      (pipeRuns wholeAddressSpace).Throughout Intact (.start (fresh 4) (fresh 8)) twoLines := by
  have hrun : (pipeRuns wholeAddressSpace).exec (.start (fresh 4) (fresh 8)) twoLines = some _ := rfl
  have hiff := (pipe_intact_iff wholeAddressSpace fresh_connects twoLines hrun).1
  exact ⟨_, hrun, rfl, ⟨⟨rfl, rfl⟩, rfl⟩, hiff.mpr (by decide)⟩

end TurboNet.Net.Buffer
