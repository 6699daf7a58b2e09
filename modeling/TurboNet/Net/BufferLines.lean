/-
# TurboNet.Net.BufferLines — `Buffer::FindCRLF`, and lines cut from a buffer.

`FindCRLF` searches the readable bytes, so what it finds is a matter of the contents alone
(`findCRLF_spec`).  A reader that repeats `FindCRLF` and `ReadToString(k + 2)` while bytes are pushed
at any moment takes the lines of the stream one by one (`CutInv`), and once `FindCRLF` gives null it
has taken all of them: how the stream was cut into pushes, and what else lay in the vector, makes no
difference.
-/
import TurboNet.Lib.Delimited
import TurboNet.Net.BufferRoom

namespace TurboNet.Net.Buffer

open TurboNet.Lib

variable {A : Allocator} {b b' : Buffer} {data : List Byte} {k : Nat}

/-! ## `std::search` -/

theorem occursAt_zero {d xs : List Byte} : OccursAt d xs 0 ↔ d.isPrefixOf xs = true := by
  rw [List.isPrefixOf_iff_prefix]
  exact Iff.rfl

theorem occursAt_succ {d xs : List Byte} {c : Byte} : OccursAt d (c :: xs) (k + 1) ↔ OccursAt d xs k :=
  Iff.rfl

/-- `search` finds the first occurrence, if there is one. -/
theorem search_spec {d : List Byte} (hd : d ≠ []) (xs : List Byte) :
    (∀ k, search d xs = some k → FirstAt d xs k) ∧
      (search d xs = none → ∀ k, ¬ OccursAt d xs k) := by
  induction xs with
  | nil =>
    rw [search, if_neg hd]
    refine ⟨nofun, fun _ k hoccurs => ?_⟩
    have hle := hoccurs.le_length hd
    have hpos := List.length_pos_iff.mpr hd
    rw [List.length_nil] at hle
    omega
  | cons c xs ih =>
    rw [search]
    split
    next hprefix =>
      refine ⟨?_, nofun⟩
      rintro k ⟨⟩
      exact ⟨occursAt_zero.mpr hprefix, nofun⟩
    next hprefix =>
      constructor
      · intro k hk
        obtain ⟨j, hj, rfl⟩ := Option.map_eq_some_iff.mp hk
        have hfirst := ih.1 j hj
        refine ⟨occursAt_succ.mpr hfirst.occurs, ?_⟩
        intro i hi hoccurs
        cases i with
        | zero => exact hprefix (occursAt_zero.mp hoccurs)
        | succ i => exact hfirst.first i (by omega) (occursAt_succ.mp hoccurs)
      · intro hnone k hoccurs
        have hrest := ih.2 (Option.map_eq_none_iff.mp hnone)
        cases k with
        | zero => exact hprefix (occursAt_zero.mp hoccurs)
        | succ k => exact hrest k (occursAt_succ.mp hoccurs)

/-! ## `FindCRLF` -/

/-- `contents[k]` is `'\r'` and `contents[k + 1]` is `'\n'`. -/
def CrlfAt (contents : List Byte) (k : Nat) : Prop :=
  contents[k]? = some 13 ∧ contents[k + 1]? = some 10

theorem occursAt_kCRLF {xs : List Byte} : OccursAt kCRLF xs k ↔ CrlfAt xs k := occursAt_pair

theorem findCRLF_run (h : b.Wf A) :
    findCRLF.run b = .ok ((search kCRLF b.contents).map (b.readerIndex + ·)) b := by
  unfold findCRLF
  rw [run_get_bind, if_pos ⟨h.reader_le, h.write_le⟩]
  rfl

/-- `FindCRLF` gives null, or the first CRLF of the readable bytes. -/
def FindsFirst (b : Buffer) : Prop :=
  ∃ r, findCRLF.run b = .ok r b ∧ (r = none ↔ ∀ k, ¬ CrlfAt b.contents k) ∧
    ∀ i, r = some i →
      ∃ k, i = b.readerIndex + k ∧ CrlfAt b.contents k ∧ ∀ j < k, ¬ CrlfAt b.contents j

theorem findCRLF_spec (h : b.Wf A) : FindsFirst b := by
  obtain ⟨hfound, hnone⟩ := search_spec (by decide : kCRLF ≠ []) b.contents
  refine ⟨_, findCRLF_run h, ⟨?_, ?_⟩, ?_⟩
  · intro hnull k hcrlf
    exact hnone (Option.map_eq_none_iff.mp hnull) k (occursAt_kCRLF.mpr hcrlf)
  · intro hno
    cases hsearch : search kCRLF b.contents with
    | none => rfl
    | some k => exact absurd (occursAt_kCRLF.mp (hfound k hsearch).occurs) (hno k)
  · intro i hi
    obtain ⟨k, hk, rfl⟩ := Option.map_eq_some_iff.mp hi
    have hfirst := hfound k hk
    exact ⟨k, rfl, occursAt_kCRLF.mp hfirst.occurs,
      fun j hj hcrlf => hfirst.first j hj (occursAt_kCRLF.mpr hcrlf)⟩

/-! ## A reader of lines -/

/-- A buffer, the offset of the CRLF its reader found last, the bytes pushed so far and the lines
read so far. -/
structure LineReader where
  buf : Buffer
  found : Option Nat
  pushed : List Byte
  lines : List (List Byte)
  deriving DecidableEq, Repr

namespace LineReader

/-- A reader about to start on `b`. -/
def start (b : Buffer) : LineReader := { buf := b, found := none, pushed := [], lines := [] }

/-- `PushBack`, `FindCRLF`, and `ReadToString(k + 2)` of the line found last. -/
inductive Act where
  | push (data : List Byte)
  | find
  | read
  deriving DecidableEq, Repr

/-- A push that throws pushes nothing; there is no line to read before one is found. -/
def step (A : Allocator) (s : LineReader) : Act → Option LineReader
  | .push data =>
    match (pushBack A data).run s.buf with
    | .ok _ b => some { s with buf := b, pushed := s.pushed ++ data }
    | .error (.lengthError _) b => some { s with buf := b }
    | .error _ _ => none
  | .find =>
    match findCRLF.run s.buf with
    | .ok r b => some { s with buf := b, found := r.map (· - s.buf.readerIndex) }
    | .error _ _ => none
  | .read =>
    match s.found with
    | none => none
    | some k =>
      match (readToString (k + 2)).run s.buf with
      | .ok line b => some { s with buf := b, found := none, lines := s.lines ++ [line] }
      | .error _ _ => none

end LineReader

/-- The runs of a reader of lines. -/
def lineRuns (A : Allocator) : StepSystem LineReader LineReader.Act where
  step := LineReader.step A

/-- `FindCRLF` gives null. -/
def LineReader.Done (s : LineReader) : Prop := findCRLF.run s.buf = .ok none s.buf

/-! ## What one call does -/

/-- A push that returns has appended its bytes: no sum wrapped. -/
theorem pushBack_ok (h : Sound A b) (hrun : (pushBack A data).run b = .ok () b') :
    Sound A b' ∧ b'.contents = b.contents ++ data := by
  have hov : NoOverflow b data.length := by
    by_contra hov
    have hensure := hrun
    rw [pushBack_eq] at hensure
    obtain ⟨_, b₁, hensure, hwrite⟩ := bind_ok_iff.mp hensure
    obtain ⟨hmake, hroom⟩ := makeSpace_of_ensure_ok (writeableBytes_lt_of_overflow hov) hensure
    unfold writeAtWriteable at hwrite
    rw [run_get_bind] at hwrite
    obtain ⟨_, b₂, hcopy, -⟩ := bind_ok_iff.mp hwrite
    obtain ⟨hfit, -⟩ := copyIn_ok hcopy
    have hlen : data.length < 2 ^ 64 := Nat.lt_of_le_of_lt hroom (Nat.mod_lt _ (by decide))
    exact not_makesSpace_of_overflow h hlen hov (.inr ⟨b₁, hmake, hroom, by omega⟩)
  have hcall : Session.call A { buf := b, log := [] } (.pushBack data) = some _ :=
    call_of_ok (run_bind_of_ok hrun)
  have hlegal : Legal { buf := b, log := [] } (.pushBack data) := hov
  have hsound := call_sound h hlegal hcall
  rcases pushBack_spec h.wf hov with ⟨b₁, hok, -, hcontents, -⟩ | ⟨hthrew, -⟩
  · cases hrun.symm.trans hok
    exact ⟨hsound, hcontents⟩
  · cases hrun.symm.trans hthrew

theorem throws_pushBack : Throws b b (pushBack A data) :=
  throws_bind (effect_get_bind <| effect_ite
      (fun _ => throws_bind (throws_makeSpace _) fun _ _ => effect_get_bind (throws_assert ..))
      fun _ => effect_get_bind (throws_assert ..))
    fun _ _ => effect_get_bind <|
      throws_bind (throws_copyIn ..) fun _ _ => throws_moveWriteBackward ..

/-- A push that throws leaves the buffer as it was. -/
theorem pushBack_threw {n : Nat} (hrun : (pushBack A data).run b = .error (.lengthError n) b') :
    b' = b :=
  (throws_pushBack.leaves hrun).resolve_left id

/-- Reading a part of the readable bytes. -/
theorem readToString_sound {len : Nat} (h : Sound A b) (hlen : len ≤ b.readableBytes) :
    ∃ b', (readToString len).run b = .ok (b.contents.take len) b' ∧ Sound A b' ∧
      b'.contents = b.contents.drop len := by
  obtain ⟨b', hrun, -, hcontents, -⟩ := readToString_spec h.wf hlen
  have hcall : Session.call A { buf := b, log := [] } (.readToString len) = some _ :=
    call_of_ok (run_bind_of_ok hrun)
  have hlegal : Legal { buf := b, log := [] } (.readToString len) := hlen
  have hsound := call_sound h hlegal hcall
  exact ⟨b', hrun, hsound, hcontents⟩

/-! ## Runs of a reader -/

/-- The lines read so far were cut from the stream, what is left is readable, and the CRLF found last
is still the first one. -/
structure CutInv (A : Allocator) (stream : List Byte) (s : LineReader) : Prop where
  sound : Sound A s.buf
  cut : Cut kCRLF (stream ++ s.pushed) s.lines s.buf.contents
  found : ∀ k, s.found = some k → FirstAt kCRLF s.buf.contents k

theorem kCRLF_ne_nil : kCRLF ≠ [] := by decide

theorem cutInv_start (h : Sound A b) : CutInv A b.contents (.start b) :=
  ⟨h, by rw [LineReader.start, List.append_nil]; exact .nil _, nofun⟩

theorem cutInv_step {stream : List Byte} {s s' : LineReader} {act : LineReader.Act}
    (h : CutInv A stream s) (hstep : (lineRuns A).step s act = some s') : CutInv A stream s' := by
  change LineReader.step A s act = some s' at hstep
  cases act with
  | push data =>
    unfold LineReader.step at hstep
    dsimp only at hstep
    split at hstep
    next b hrun =>
      cases hstep
      obtain ⟨hsound, hcontents⟩ := pushBack_ok h.sound hrun
      refine ⟨hsound, ?_, fun k hk => ?_⟩
      · rw [hcontents, ← List.append_assoc]
        exact h.cut.append kCRLF_ne_nil data
      · rw [hcontents]
        exact (h.found k hk).append kCRLF_ne_nil data
    next n b hrun =>
      cases hstep
      obtain rfl := pushBack_threw hrun
      exact ⟨h.sound, h.cut, h.found⟩
    next => cases hstep
  | find =>
    unfold LineReader.step at hstep
    dsimp only at hstep
    rw [findCRLF_run h.sound.wf] at hstep
    cases hstep
    refine ⟨h.sound, h.cut, fun k hk => ?_⟩
    rw [Option.map_map] at hk
    obtain ⟨j, hj, rfl⟩ := Option.map_eq_some_iff.mp hk
    show FirstAt kCRLF s.buf.contents (s.buf.readerIndex + j - s.buf.readerIndex)
    rw [Nat.add_sub_cancel_left]
    exact (search_spec kCRLF_ne_nil s.buf.contents).1 j hj
  | read =>
    unfold LineReader.step at hstep
    dsimp only at hstep
    split at hstep
    next => cases hstep
    next k hk =>
      have hfirst := h.found k hk
      have hlen : k + 2 ≤ s.buf.readableBytes := by
        rw [← h.sound.wf.length_contents]
        exact hfirst.occurs.le_length kCRLF_ne_nil
      obtain ⟨b, hrun, hsound, hcontents⟩ := readToString_sound h.sound hlen
      rw [hrun] at hstep
      cases hstep
      refine ⟨hsound, ?_, nofun⟩
      rw [hcontents]
      exact h.cut.concat hfirst

theorem cutInv_run {s : LineReader} {acts : List LineReader.Act} (h : Sound A b)
    (hrun : (lineRuns A).exec (.start b) acts = some s) : CutInv A b.contents s :=
  StepSystem.exec_invariant (fun _ _ _ => cutInv_step) (cutInv_start h) hrun

/-- With `FindCRLF` at null, no delimiter is left. -/
theorem LineReader.Done.none_left {s : LineReader} (hdone : s.Done) (h : Sound A s.buf) (k : Nat) :
    ¬ OccursAt kCRLF s.buf.contents k := by
  obtain ⟨r, hrun, hnull, -⟩ := findCRLF_spec h.wf
  cases hdone.symm.trans hrun
  rw [occursAt_kCRLF]
  exact hnull.mp rfl k

/-- Two readers that start on the same readable bytes, are pushed the same bytes and have come to
their end have read the same lines. -/
theorem same_lines {b₁ b₂ : Buffer} (h₁ : Sound A b₁) (h₂ : Sound A b₂)
    (hcontents : b₂.contents = b₁.contents) {acts₁ acts₂ : List LineReader.Act} {s₁ s₂ : LineReader}
    (hrun₁ : (lineRuns A).exec (.start b₁) acts₁ = some s₁)
    (hrun₂ : (lineRuns A).exec (.start b₂) acts₂ = some s₂) (hpushed : s₂.pushed = s₁.pushed)
    (hdone₁ : s₁.Done) (hdone₂ : s₂.Done) : s₂.lines = s₁.lines := by
  have hinv₁ := cutInv_run h₁ hrun₁
  have hinv₂ := cutInv_run h₂ hrun₂
  have hcut₂ := hinv₂.cut
  rw [hcontents, hpushed] at hcut₂
  exact hcut₂.unique (hdone₂.none_left hinv₂.sound) hinv₁.cut (hdone₁.none_left hinv₁.sound)

/-- What a reader has left to do. -/
def LineReader.left (s : LineReader) : Nat :=
  2 * s.buf.contents.length + if s.found = none then 1 else 0

/-- A reader whose `FindCRLF` is not null has a line to find, or to read, and reading it takes bytes
away. -/
theorem goes_on {stream : List Byte} {s : LineReader} (h : CutInv A stream s) (hmore : ¬ s.Done) :
    ∃ act s', (∀ data, act ≠ .push data) ∧ (lineRuns A).step s act = some s' ∧
      s'.pushed = s.pushed ∧ s'.left < s.left := by
  cases hfound : s.found with
  | none =>
    have hrun := findCRLF_run h.sound.wf
    have hsearch : search kCRLF s.buf.contents ≠ none := by
      intro hnone
      rw [hnone] at hrun
      exact hmore hrun
    obtain ⟨k, hk⟩ := Option.ne_none_iff_exists'.mp hsearch
    rw [hk] at hrun
    refine ⟨.find, { s with found := some (s.buf.readerIndex + k - s.buf.readerIndex) }, nofun, ?_,
      rfl, by simp [LineReader.left, hfound]⟩
    show LineReader.step A s .find = _
    simp only [LineReader.step, hrun, Option.map_some]
  | some k =>
    have hle := (h.found k hfound).occurs.le_length kCRLF_ne_nil
    have hlen : k + 2 ≤ s.buf.readableBytes := by
      rw [← h.sound.wf.length_contents]
      exact hle
    obtain ⟨b, hrun, -, hcontents⟩ := readToString_sound h.sound hlen
    refine ⟨.read, { s with buf := b, found := none,
                            lines := s.lines ++ [s.buf.contents.take (k + 2)] }, nofun, ?_, rfl, ?_⟩
    · show LineReader.step A s .read = _
      simp only [LineReader.step, hfound, hrun]
    · have hcrlf : kCRLF.length = 2 := rfl
      simp only [LineReader.left, hcontents, hfound, List.length_drop, if_true, reduceCtorEq, if_false]
      omega

/-- From any state, finding and reading alone bring the reader to its end. -/
theorem comes_to_end {stream : List Byte} {s : LineReader} (h : CutInv A stream s) :
    ∃ acts s', (∀ act ∈ acts, ∀ data, act ≠ .push data) ∧ (lineRuns A).exec s acts = some s' ∧
      s'.pushed = s.pushed ∧ s'.Done := by
  have hstep (t : LineReader) (ht : CutInv A stream t ∧ t.pushed = s.pushed) (hmore : ¬ t.Done) :
      ∃ act t', (∀ data, act ≠ .push data) ∧ (lineRuns A).step t act = some t' ∧
        (CutInv A stream t' ∧ t'.pushed = s.pushed) ∧ t'.left < t.left := by
    obtain ⟨act, t', hact, hstep, hpushed, hlt⟩ := goes_on ht.1 hmore
    exact ⟨act, t', hact, hstep, ⟨cutInv_step ht.1 hstep, hpushed.trans ht.2⟩, hlt⟩
  obtain ⟨acts, s', hacts, hrun, hinv, hdone⟩ := StepSystem.exec_drain hstep ⟨h, rfl⟩
  exact ⟨acts, s', hacts, hrun, hinv.2, hdone⟩

/-- **`FindCRLF` depends on the readable bytes alone.** On every reachable buffer it gives null or
the first CRLF of the readable bytes.  A reader that starts on the buffer can always read on until
`FindCRLF` gives null, and then it has the lines that any other reader has then, of any buffer with
the same readable bytes at the start, however the same bytes are pushed to the two in the meantime. -/
theorem findCRLF_readable_only (A : Allocator) (b : Buffer) (h : Reachable A b) :
    FindsFirst b ∧
      (∀ acts s, (lineRuns A).exec (.start b) acts = some s →
        ∃ more s', (∀ act ∈ more, ∀ data, act ≠ .push data) ∧
          (lineRuns A).exec s more = some s' ∧ s'.pushed = s.pushed ∧ s'.Done) ∧
      ∀ b₂, Reachable A b₂ → b₂.contents = b.contents → ∀ acts acts₂ s s₂,
        (lineRuns A).exec (.start b) acts = some s →
        (lineRuns A).exec (.start b₂) acts₂ = some s₂ →
        s₂.pushed = s.pushed → s.Done → s₂.Done → s₂.lines = s.lines := by
  refine ⟨findCRLF_spec h.sound.wf, ?_, ?_⟩
  · intro acts s hrun
    exact comes_to_end (cutInv_run h.sound hrun)
  · intro b₂ h₂ hcontents acts acts₂ s s₂ hrun hrun₂ hpushed hdone hdone₂
    exact same_lines h.sound h₂.sound hcontents hrun hrun₂ hpushed hdone hdone₂

/-- `"a\r\nb\r\n"` in one piece. -/
def atOnce : List LineReader.Act :=
  [.push [97, 13, 10, 98, 13, 10], .find, .read, .find, .read, .find]

/-- The same bytes, cut inside both delimiters. -/
def inPieces : List LineReader.Act :=
  [.push [97, 13], .find, .push [10, 98, 13], .find, .push [10], .read, .find, .read, .find]

theorem findCRLF_readable_only_twoLines :
    FindsFirst (fresh 4) ∧ ∃ s s₂,
      (lineRuns wholeAddressSpace).exec (.start (fresh 4)) atOnce = some s ∧
      (lineRuns wholeAddressSpace).exec (.start (fresh 0)) inPieces = some s₂ ∧
      s.lines = [[97, 13, 10], [98, 13, 10]] ∧ s₂.lines = s.lines := by
  obtain ⟨hfinds, -, hsame⟩ := findCRLF_readable_only wholeAddressSpace (fresh 4) fresh_reachable
  have hother : Reachable wholeAddressSpace (fresh 0) :=
    .constructed (by decide) (rfl : (construct wholeAddressSpace 0).run ⟨[], 0, 0⟩ = _)
  exact ⟨hfinds, _, _, rfl, rfl, rfl,
    hsame (fresh 0) hother rfl atOnce inPieces _ _ rfl rfl rfl rfl rfl⟩

end TurboNet.Net.Buffer
