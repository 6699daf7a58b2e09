/-
# TurboNet.Net.BufferSwap — what `Buffer::Swap` exchanges.

`Swap` exchanges the vectors and `reader_index_`, and then `write_index` with itself, so that each
buffer keeps its own writer over the other one's storage.  A run here is a list of calls on either of
two buffers, and `observe` is what it shows.  Exchanging the two buffers as a whole is a relabelling
that no run can see (`observe_relabelled`); `Swap` is that exchange exactly when the writers agree
(`swap_exchanges_iff`).
-/
import TurboNet.Net.BufferRefines

namespace TurboNet.Net.Buffer

open TurboNet.Lib

variable {A : Allocator} {x y : Buffer}

/-! ## Runs on two buffers -/

/-- A member function of one buffer, with its arguments and what its environment answers. -/
inductive Call where
  | op (o : Op)
  | readFd (errnoInfo : Int) (res : ReadvResult)
  | contents
  | readableBytes
  | writeableBytes
  | prependableBytes
  | findCRLF
  deriving DecidableEq, Repr

/-- What a call shows. -/
inductive Answer where
  | out (shown : Out)
  | read (shown : ReadFdOut)
  | bytes (data : List Byte)
  | size (n : Nat)
  | position (offset : Option Nat)
  | stopped (fault : Fault)
  deriving DecidableEq, Repr

/-- The member function a call runs.  The readable bytes are those at `ReadableAddress()`. -/
def Call.method (A : Allocator) : Call → Method Answer
  | .op o => do pure (.out (← o.method A))
  | .readFd errnoInfo res => do pure (.read (← Buffer.readFd A errnoInfo res))
  | .contents => do
    let b ← get
    pure (.bytes (← copyOut b.readerIndex b.readableBytes))
  | .readableBytes => do pure (.size (← get).readableBytes)
  | .writeableBytes => do pure (.size (← get).writeableBytes)
  | .prependableBytes => do pure (.size (← get).prependableBytes)
  | .findCRLF => do pure (.position (← Buffer.findCRLF))

/-- Which of the two buffers. -/
inductive Side where
  | left
  | right
  deriving DecidableEq, Repr

/-- The other buffer. -/
def Side.other : Side → Side
  | .left => .right
  | .right => .left

def Side.get : Side → Buffer × Buffer → Buffer
  | .left, p => p.1
  | .right, p => p.2

def Side.put : Side → Buffer → Buffer × Buffer → Buffer × Buffer
  | .left, b, p => (b, p.2)
  | .right, b, p => (p.1, b)

/-- A call on one of the two buffers, or `Swap` on one of them with the other. -/
inductive Act where
  | call (side : Side) (c : Call)
  | swap (side : Side)
  deriving DecidableEq, Repr

/-- The same on the other buffer. -/
def Act.other : Act → Act
  | .call side c => .call side.other c
  | .swap side => .swap side.other

/-- What the acts show, up to an assert that fires or an access outside the vector. -/
def observe (A : Allocator) : Buffer × Buffer → List Act → List Answer
  | _, [] => []
  | p, .call side c :: acts =>
    match (c.method A).run (side.get p) with
    | .ok answer b => answer :: observe A (side.put b p) acts
    | .error (.lengthError n) b => .stopped (.lengthError n) :: observe A (side.put b p) acts
    | .error fault _ => [.stopped fault]
  | p, .swap .left :: acts => observe A (swap p.1 p.2) acts
  | p, .swap .right :: acts => observe A (swap p.2 p.1).swap acts

/-! ## Relabelling -/

@[simp] theorem Side.get_swap (side : Side) (p : Buffer × Buffer) :
    side.get p.swap = side.other.get p := by
  cases side <;> rfl

@[simp] theorem Side.put_swap (side : Side) (b : Buffer) (p : Buffer × Buffer) :
    side.put b p.swap = (side.other.put b p).swap := by
  cases side <;> rfl

/-- **No run can tell which buffer is which.** Acts on the exchanged pair show what the same acts,
each on the other buffer, show on the pair itself. -/
theorem observe_relabelled (p : Buffer × Buffer) (acts : List Act) :
    observe A p.swap acts = observe A p (acts.map Act.other) := by
  induction acts generalizing p with
  | nil => rfl
  | cons act acts ih =>
    cases act with
    | call side c =>
      simp only [List.map_cons, Act.other, observe, Side.get_swap, Side.put_swap]
      cases (c.method A).run (side.other.get p) with
      | ok answer b => simp only [ih]
      | error fault b => cases fault <;> simp only [ih]
    | swap side =>
      cases side with
      | left => exact ih (swap p.2 p.1).swap
      | right => exact ih (swap p.1 p.2)

/-! ## What `Swap` does -/

/-- `reader_index_ <= write_index <= buffer_.size()`. -/
def InBounds (b : Buffer) : Prop :=
  b.readerIndex ≤ b.writeIndex ∧ b.writeIndex ≤ b.buffer.length

instance (b : Buffer) : Decidable b.InBounds := inferInstanceAs (Decidable (_ ∧ _))

theorem Wf.inBounds {b : Buffer} (h : b.Wf A) : b.InBounds := ⟨h.reader_le, h.write_le⟩

/-- `x.Swap(y)` exchanges the two buffers: whatever is done to them later shows on each what it
would have shown on the other without the swap, and both have their indices in order. -/
def SwapExchanges (A : Allocator) (x y : Buffer) : Prop :=
  (∀ acts, observe A (swap x y) acts = observe A (x, y) (acts.map Act.other)) ∧
    (swap x y).1.InBounds ∧ (swap x y).2.InBounds

/-- With equal writers nothing is left unexchanged. -/
theorem swap_of_writeIndex_eq (h : x.writeIndex = y.writeIndex) : swap x y = (y, x) := by
  cases x
  cases y
  cases h
  rfl

/-- `ReadableBytes()` after the swap tells the writers apart. -/
theorem SwapExchanges.writers (h : SwapExchanges A x y) (hx : x.writeIndex < 2 ^ 64)
    (hy : y.writeIndex < 2 ^ 64) : x.writeIndex = y.writeIndex := by
  have hquery := h.1 [.call .left .readableBytes]
  have hsame : (swap x y).1.readableBytes = y.readableBytes := by
    injection hquery with hanswer
    injection hanswer
  -- one reader subtracted from both, with the same wrap
  have hwrapped : usub 64 x.writeIndex y.readerIndex = usub 64 y.writeIndex y.readerIndex := hsame
  unfold usub at hwrapped
  omega

theorem swapExchanges_of_writers (h : x.writeIndex = y.writeIndex) (hx : x.InBounds)
    (hy : y.InBounds) : SwapExchanges A x y := by
  rw [SwapExchanges, swap_of_writeIndex_eq h]
  exact ⟨observe_relabelled (x, y), hy, hx⟩

/-- Between buffers in order, as every run of legal calls leaves them, the writers decide. -/
theorem swapExchanges_iff_of_wf (hx : x.Wf A) (hy : y.Wf A) :
    SwapExchanges A x y ↔ x.writeIndex = y.writeIndex := by
  constructor
  · intro h
    exact h.writers (Nat.lt_of_le_of_lt hx.write_le hx.size_lt)
      (Nat.lt_of_le_of_lt hy.write_le hy.size_lt)
  · intro h
    exact swapExchanges_of_writers h hx.inBounds hy.inBounds

/-- **When `Swap` exchanges.** For any two buffers, whatever their vectors and indices: exactly when
both writers are at the same index, and each buffer had its own indices in order. -/
theorem swap_exchanges_iff (A : Allocator) (x y : Buffer) (hx : x.writeIndex < 2 ^ 64)
    (hy : y.writeIndex < 2 ^ 64) :
    SwapExchanges A x y ↔ x.writeIndex = y.writeIndex ∧ x.InBounds ∧ y.InBounds := by
  constructor
  · intro h
    have hwriters := h.writers hx hy
    obtain ⟨-, hleft, hright⟩ := h
    rw [swap_of_writeIndex_eq hwriters] at hleft hright
    exact ⟨hwriters, hright, hleft⟩
  · rintro ⟨hwriters, hboundsx, hboundsy⟩
    exact swapExchanges_of_writers hwriters hboundsx hboundsy

/-- Room for eight bytes, three written and two of them read. -/
def partlyRead : Buffer where
  buffer := List.replicate 8 0 ++ [97, 98, 99] ++ List.replicate 5 0
  readerIndex := 10
  writeIndex := 11

/-- The same room, and three bytes written. -/
def written : Buffer where
  buffer := List.replicate 8 0 ++ [120, 121, 122] ++ List.replicate 5 0
  readerIndex := 8
  writeIndex := 11

/-- Both writers are at 11. -/
theorem swap_exchanges_partlyRead : SwapExchanges wholeAddressSpace partlyRead written :=
  (swap_exchanges_iff wholeAddressSpace partlyRead written (by decide) (by decide)).mpr
    ⟨rfl, by decide, by decide⟩

/-- Against a buffer just constructed the writers are at 11 and at 8: what was constructed has its
reader at 10 and its writer at 8 afterwards, and its `ReadableBytes()` is `2 ^ 64 - 2`. -/
theorem swap_leaves_the_writers :
    ((sessions wholeAddressSpace).exec { buf := fresh 8, log := [] }
        [.pushBack [97, 98, 99], .moveReadBackward 2]).map Session.buf = some partlyRead ∧
      (swap (fresh 8) partlyRead).1.readableBytes = 2 ^ 64 - 2 ∧
      ¬ SwapExchanges wholeAddressSpace (fresh 8) partlyRead := by
  refine ⟨rfl, by decide, ?_⟩
  rintro ⟨-, hleft, -⟩
  exact absurd hleft.1 (by decide)

end TurboNet.Net.Buffer
